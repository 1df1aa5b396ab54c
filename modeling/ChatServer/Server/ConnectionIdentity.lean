import ChatServer.Server.Addressing

/-!
# The connection a command acts on

A task carries a descriptor, and so do the commands that the worker queues for it. When the client
is gone and its number belongs to somebody else by the time they are handled, they act on the new
connection; in the run `reusedNumber` a client is logged in with the name and password of another.

This needs a task or a command of the worker directed at the number when the new connection is
queued for registration. In every run in which a registration is only queued with a fresh number
(`FreshDescriptor`) each command acts on the connection its line was received on, or on none, and
a connection has a user only after an accepted login line of its own (`identityKept_of_fresh`).
-/

set_option autoImplicit false
set_option relaxedAutoImplicit false

namespace ChatServer

/-- A connection is queued for registration only when no task and no command of the worker is
directed at its descriptor. -/
def FreshDescriptor (state : ServerState) (label : ServerLabel) : Prop :=
  match label with
  | .requestRegister => ∀ owner ∈ state.acceptor,
      (∀ entry ∈ state.tasks, entry.task.fd ≠ owner.1) ∧
        ∀ queued ∈ state.todo, queued.command.target ≠ some owner.1
  | _ => True

instance (state : ServerState) (label : ServerLabel) : Decidable (FreshDescriptor state label) :=
  match label with
  | .requestRegister => inferInstanceAs (Decidable (∀ owner ∈ state.acceptor,
      (∀ entry ∈ state.tasks, entry.task.fd ≠ owner.1) ∧
        ∀ queued ∈ state.todo, queued.command.target ≠ some owner.1))
  | .accept _ | .epollWait _ | .swap | .handle _ | .workDone | .dispatch _ | .dispatchDone
  | .take _ | .push | .finish => isTrue trivial

/-- A login line for this user was received on this connection and accepted. -/
def Ledger.LoggedIn (ledger : Ledger) (conn : Nat) (userId : Bytes) : Prop :=
  (∃ execution ∈ ledger.executed,
    execution.entry.conn = conn ∧ execution.identity = some userId) ∧
  ∃ line ∈ ledger.linesOf conn, ∃ pw, decode line = .ok (.cmdLogin userId pw)

/-- Commands act on the connections they are meant for, and so do logins. -/
structure IdentityKept (state : ServerState) : Prop where
  command : ∀ queued rest, state.queued = queued :: rest → ∀ fd, queued.command.target = some fd →
    fd ∈ state.registry.infos → state.kernel.conn fd = some queued.conn
  login : ∀ fd si, state.registry.infos.lookup fd = some si → si.userId ≠ [] →
    ∃ conn, state.kernel.conn fd = some conn ∧ state.ledger.LoggedIn conn si.userId

/-! ### A number that is used again -/

/-- A client registers the account `a`, logs in and hangs up; before the worker has done anything,
another client is accepted at the same number. -/
def reusedNumber : List ServerLabel :=
  connecting 5 ++ round [] 1 [] ++
    sending 5 [.cmdRegister (text "a") (text "p"), .cmdLogin (text "a") (text "p")] ++
    round [(5, epollIn ||| epollRdhup)] 0 [[]] ++ round [] 1 [] ++
    connecting 5 ++ round [] 1 [] ++
    executing 1 ++ executing 4 ++ working [] 2

/-- The new client has sent nothing and is logged in as `a`. -/
theorem reusedNumber_loggedIn :
    ∃ state, (@chatServer bytewise).run ServerState.start reusedNumber = some state ∧
      (∃ si, state.registry.infos.lookup 5 = some si ∧ si.userId = text "a") ∧
      state.kernel.conn 5 = some 1 ∧ state.ledger.receivedOf 1 = [] ∧ ¬ IdentityKept state := by
  obtain ⟨state, hrun, hinfo, hconn, hreceived, hlines⟩ :
      ∃ state, (@chatServer bytewise).run ServerState.start reusedNumber = some state ∧
        (∃ si, state.registry.infos.lookup 5 = some si ∧ si.userId = text "a") ∧
        state.kernel.conn 5 = some 1 ∧ state.ledger.receivedOf 1 = [] ∧
        state.ledger.linesOf 1 = [] :=
    ⟨_, rfl, ⟨_, rfl, rfl⟩, rfl, rfl, rfl⟩
  refine ⟨state, hrun, hinfo, hconn, hreceived, fun hkept ↦ ?_⟩
  obtain ⟨si, hsi, huser⟩ := hinfo
  obtain ⟨conn, hother, -, line, hline, -⟩ := hkept.login 5 si hsi (by rw [huser]; decide)
  rw [hconn, Option.some.injEq] at hother
  rw [← hother, hlines] at hline
  cases hline

/-! ### Runs with fresh numbers -/

/-- With fresh numbers everything under way is aligned. -/
theorem aligned_of_fresh [LinearOrder Bytes] {state : ServerState}
    (hreach : chatServer.ReachableUnder FreshDescriptor state) :
    state.pipeline.Aligned fun _ ↦ true := by
  refine pipeline_induction Pipeline.aligned_start ?_ hreach
  intro state label next hreach haligned hfresh hstep
  refine haligned.step (owned_of_reachable hreach) (fun _ _ _ _ ↦ rfl) ?_ hstep
  rintro rfl fd conn hacceptor item hitem -
  obtain ⟨htasks, htodo⟩ := hfresh (fd, conn) hacceptor
  rcases List.mem_append.mp hitem with hcommand | htask
  · obtain ⟨queued, hqueued, rfl⟩ := List.mem_map.mp hcommand
    exact htodo queued hqueued
  · obtain ⟨entry, hentry, rfl⟩ := List.mem_map.mp htask
    intro hsame
    exact htasks entry hentry (Option.some.inj hsame)

/-- The record of a later state contains that of an earlier one. -/
structure Ledger.Extends (ledger later : Ledger) : Prop where
  executed : ledger.executed ⊆ later.executed
  lines : ∀ conn, ledger.linesOf conn ⊆ later.linesOf conn

theorem Ledger.LoggedIn.mono {ledger later : Ledger} {conn : Nat} {userId : Bytes}
    (hlogged : ledger.LoggedIn conn userId) (hextends : ledger.Extends later) :
    later.LoggedIn conn userId := by
  obtain ⟨⟨execution, hexecution, hmatch⟩, line, hline, hdecode⟩ := hlogged
  exact ⟨⟨execution, hextends.executed hexecution, hmatch⟩, line, hextends.lines conn hline,
    hdecode⟩

namespace Pipeline

variable {pipeline : Pipeline}

/-- Every task has its line, every command that sets a user its login, and so has every connection
with a user. -/
structure LoginsRecorded (pipeline : Pipeline) : Prop where
  tasks : ∀ entry ∈ pipeline.tasks,
    ∃ line ∈ pipeline.ledger.linesOf entry.conn, decode line = .ok entry.task.cmd
  commands : ∀ queued ∈ pipeline.queued ++ pipeline.todo, ∀ fd userId,
    queued.command = .setUserId fd userId → userId ≠ [] →
      pipeline.ledger.LoggedIn queued.conn userId
  registered : ∀ fd si, pipeline.registry.infos.lookup fd = some si → si.userId ≠ [] →
    ∃ conn, pipeline.kernel.conn fd = some conn ∧ pipeline.ledger.LoggedIn conn si.userId

theorem loginsRecorded_start : ServerState.start.pipeline.LoginsRecorded where
  tasks := by simp [ServerState.pipeline, ServerState.start]
  commands := by
    simp [ServerState.pipeline, ServerState.start, ServerState.queued, ServerState.pending,
      ServerState.todo]
  registered := by simp [ServerState.pipeline, ServerState.start, EpollRegistry.empty]

theorem LoginsRecorded.accepted (hrecorded : pipeline.LoginsRecorded) (howned : pipeline.Owned)
    {fd : Int} (hclosed : fd ∉ pipeline.kernel.sockets) :
    (pipeline.accepted fd).LoginsRecorded := by
  refine ⟨hrecorded.tasks, hrecorded.commands, fun other si hinfo huser ↦ ?_⟩
  obtain ⟨conn, hconn, hlogged⟩ := hrecorded.registered other si hinfo huser
  refine ⟨conn, ?_, hlogged⟩
  have hmem := Finmap.mem_of_lookup_eq_some hinfo
  have hsame := registeredAt_accepted howned hclosed other
  have hregistered : pipeline.registeredAt other = some conn :=
    registeredAt_eq_some.mpr ⟨hmem, hconn⟩
  exact (registeredAt_eq_some.mp (hsame.trans hregistered)).2

theorem LoginsRecorded.registering (hrecorded : pipeline.LoginsRecorded) (fd : Int) (conn : Nat) :
    (pipeline.registering fd conn).LoginsRecorded := by
  refine ⟨hrecorded.tasks, fun queued hqueued other userId hcommand huser ↦ ?_,
    hrecorded.registered⟩
  simp only [Pipeline.registering, List.mem_append, List.mem_singleton] at hqueued
  rcases hqueued with (hold | rfl) | hold
  · exact hrecorded.commands queued (List.mem_append_left _ hold) other userId hcommand huser
  · cases hcommand
  · exact hrecorded.commands queued (List.mem_append_right _ hold) other userId hcommand huser

theorem LoginsRecorded.handled (hrecorded : pipeline.LoginsRecorded) (howned : pipeline.Owned)
    (haligned : pipeline.Aligned fun _ ↦ true) (env : HandlerEnv) {queued : Queued}
    {rest : List Queued} (hqueued : pipeline.queued = queued :: rest) :
    (pipeline.handled env queued rest).LoginsRecorded := by
  have hhandles := howned.handles env hqueued
  refine ⟨hrecorded.tasks, fun other hother ↦ hrecorded.commands other ?_,
    fun fd si' hinfo huser ↦ ?_⟩
  · rw [hqueued, List.cons_append]
    exact List.mem_cons_of_mem _ hother
  · have hmem := Finmap.mem_of_lookup_eq_some hinfo
    rw [hhandles.conn fd hmem]
    show ∃ conn, _ ∧ pipeline.ledger.LoggedIn conn si'.userId
    rcases EpollRegistry.userId_handleCommand howned.consistent env hinfo with
      ⟨si, hsi, hsame⟩ | ⟨-, hnone⟩
    · cases hsets : queued.command.setsUser fd with
      | none =>
        rw [hsets, Option.getD_none] at hsame
        rw [hsame] at huser ⊢
        exact hrecorded.registered fd si hsi huser
      | some userId =>
        -- the command that was handled gave the connection this user
        rw [hsets, Option.getD_some] at hsame
        rw [hsame] at huser ⊢
        have hold := Finmap.mem_of_lookup_eq_some hsi
        have hcommand := RegistryCommand.setsUser_eq_some.mp hsets
        obtain ⟨conn, hconn⟩ := howned.registered fd hold
        have htarget : queued.command.target = some fd := by
          rw [hcommand]
          rfl
        have hown := haligned.target_registeredAt hqueued rfl htarget
          (registeredAt_eq_some.mpr ⟨hold, hconn⟩)
        have hqueued' : queued ∈ pipeline.queued ++ pipeline.todo := by
          rw [hqueued]
          exact List.mem_append_left _ List.mem_cons_self
        exact ⟨conn, hconn, hown ▸ hrecorded.commands queued hqueued' fd _ hcommand huser⟩
    · exact absurd hnone huser

theorem LoginsRecorded.dispatched (hrecorded : pipeline.LoginsRecorded) {fd : Int}
    {si : SocketInfo} {result : Dispatched}
    (hinfo : pipeline.registry.infos.lookup fd = some si) (hresult : Dispatches si result) :
    (pipeline.dispatched fd si result).LoginsRecorded := by
  have hextends : pipeline.ledger.Extends (pipeline.dispatched fd si result).ledger := by
    refine ⟨List.Subset.refl _, fun conn ↦ ?_⟩
    rw [linesOf_dispatched]
    exact List.subset_append_left _ _
  refine ⟨fun entry hentry ↦ ?_, fun queued hqueued other userId hcommand huser ↦ ?_,
    fun other si' hother huser ↦ ?_⟩
  · rcases List.mem_append.mp hentry with hold | hnew
    · obtain ⟨line, hline, hdecode⟩ := hrecorded.tasks entry hold
      exact ⟨line, hextends.lines _ hline, hdecode⟩
    · obtain ⟨task, htask, rfl⟩ := Option.map_eq_some_iff.mp (Option.mem_toList.mp hnew)
      obtain ⟨line, hline, hcmd⟩ := hresult.task_line htask
      refine ⟨line, ?_, EpollServer.decode_of_dbCommandOf hcmd⟩
      rw [linesOf_dispatched, if_pos rfl, hline]
      simp
  · have hold : queued ∈ pipeline.queued ++ pipeline.todo := by
      rcases List.mem_append.mp hqueued with hmem | hmem
      · rcases List.mem_append.mp hmem with hold | hnew
        · exact List.mem_append_left _ hold
        · obtain ⟨command, hrequest, rfl⟩ := List.mem_map.mp hnew
          rcases hresult.requests command hrequest with rfl | ⟨message, rfl⟩ <;> cases hcommand
      · exact List.mem_append_right _ hmem
    exact (hrecorded.commands queued hold other userId hcommand huser).mono hextends
  · rcases EpollRegistry.lookup_insert_eq_some.mp hother with ⟨rfl, rfl⟩ | ⟨-, hold⟩
    · rw [hresult.identity.userId] at huser ⊢
      obtain ⟨conn, hconn, hlogged⟩ := hrecorded.registered other si hinfo huser
      exact ⟨conn, hconn, hlogged.mono hextends⟩
    · obtain ⟨conn, hconn, hlogged⟩ := hrecorded.registered other si' hold huser
      exact ⟨conn, hconn, hlogged.mono hextends⟩

theorem LoginsRecorded.taken [LinearOrder Bytes] (hrecorded : pipeline.LoginsRecorded)
    (env : DbEnv) {entry : TaskEntry} {rest : List TaskEntry}
    (htasks : pipeline.tasks = entry :: rest) : (pipeline.taken env entry rest).LoginsRecorded := by
  have hextends : pipeline.ledger.Extends (pipeline.taken env entry rest).ledger :=
    ⟨List.subset_append_left _ _, fun _ ↦ List.Subset.refl _⟩
  refine ⟨fun other hother ↦ hrecorded.tasks other (htasks ▸ List.mem_cons_of_mem _ hother),
    fun queued hqueued fd userId hcommand huser ↦ ?_, fun fd si hinfo huser ↦ ?_⟩
  · rcases List.mem_append.mp hqueued with hold | hnew
    · exact (hrecorded.commands queued (List.mem_append_left _ hold) fd userId hcommand huser).mono
        hextends
    · obtain ⟨command, hmem, rfl⟩ := List.mem_map.mp hnew
      obtain rfl : command = .setUserId fd userId := hcommand
      have hrelevant : .setUserId fd userId ∈
          relevantOf (DbExecutor.execute env entry.task pipeline.db) :=
        List.mem_filter.mpr ⟨hmem, rfl⟩
      obtain ⟨hidentity, hlogin⟩ := (@executes_execute _ env entry.task pipeline.db).setUserId_mem
        hrelevant
      obtain ⟨pw, hcmd⟩ := hlogin huser
      obtain ⟨line, hline, hdecode⟩ := hrecorded.tasks entry (htasks ▸ List.mem_cons_self)
      refine ⟨⟨⟨entry, establishes env entry.task pipeline.db⟩, ?_, rfl, hidentity⟩, line, hline,
        pw, hdecode.trans (by rw [hcmd])⟩
      exact List.mem_append_right _ (List.mem_singleton.mpr rfl)
  · obtain ⟨conn, hconn, hlogged⟩ := hrecorded.registered fd si hinfo huser
    exact ⟨conn, hconn, hlogged.mono hextends⟩

theorem LoginsRecorded.pushed (hrecorded : pipeline.LoginsRecorded) {queued : Queued}
    {rest : List Queued} (htodo : pipeline.todo = queued :: rest) :
    (pipeline.pushed queued rest).LoginsRecorded := by
  refine ⟨hrecorded.tasks, fun other hother ↦ hrecorded.commands other ?_, hrecorded.registered⟩
  rw [htodo, ← List.singleton_append, ← List.append_assoc]
  exact hother

end Pipeline

/-- With fresh numbers every login is recorded where it takes effect. -/
theorem loginsRecorded_of_fresh [LinearOrder Bytes] {state : ServerState}
    (hreach : chatServer.ReachableUnder FreshDescriptor state) :
    state.pipeline.LoginsRecorded := by
  refine pipeline_induction Pipeline.loginsRecorded_start ?_ hreach
  intro state label next hreach hrecorded hfresh hstep
  have howned := owned_of_reachable hreach
  cases hstep with
  | accept fd hfd hclosed hidle => exact hrecorded.accepted howned hclosed
  | register fd conn hacceptor => exact hrecorded.registering fd conn
  | handle env queued rest hqueued =>
    exact hrecorded.handled howned (aligned_of_fresh hreach) env hqueued
  | dispatch env fd si result hinfo hresult => exact hrecorded.dispatched hinfo hresult
  | take env entry rest htodo htasks => exact hrecorded.taken env htasks
  | push queued rest htodo => exact hrecorded.pushed htodo

/-- In every run in which registrations are queued with fresh numbers only, each command directed at
a descriptor acts on the connection it is meant for or on none, and a connection has a user only
after an accepted login line of its own. -/
theorem identityKept_of_fresh [LinearOrder Bytes] {state : ServerState}
    (hreach : chatServer.ReachableUnder FreshDescriptor state) : IdentityKept state := by
  refine ⟨fun queued rest hqueued fd htarget hmem ↦ ?_, (loginsRecorded_of_fresh hreach).registered⟩
  obtain ⟨conn, hconn⟩ := (owned_of_reachable hreach).registered fd hmem
  have hown := (aligned_of_fresh hreach).target_registeredAt hqueued rfl htarget
    (Pipeline.registeredAt_eq_some.mpr ⟨hmem, hconn⟩)
  rw [← hown]
  exact hconn

/-- A client registers an account and logs in, and its login is handled. -/
def freshNumber : List ServerLabel :=
  connecting 5 ++ round [] 1 [] ++
    sending 5 [.cmdRegister (text "a") (text "p"), .cmdLogin (text "a") (text "p")] ++
    executing 1 ++ executing 4 ++ working [] 2

theorem identityKept_freshNumber :
    ∃ state, (@chatServer bytewise).run ServerState.start freshNumber = some state ∧
      (∃ si, state.registry.infos.lookup 5 = some si ∧ si.userId = text "a" ∧
        ∃ conn, state.kernel.conn 5 = some conn ∧ state.ledger.LoggedIn conn (text "a")) := by
  let order := bytewise
  obtain ⟨state, hrun, si, hinfo, huser⟩ :
      ∃ state, chatServer.run ServerState.start freshNumber = some state ∧
        ∃ si, state.registry.infos.lookup 5 = some si ∧ si.userId = text "a" :=
    ⟨_, rfl, _, rfl, rfl⟩
  have hfresh : chatServer.Meets FreshDescriptor ServerState.start freshNumber := by decide
  refine ⟨state, hrun, si, hinfo, huser, ?_⟩
  rw [← huser]
  exact (identityKept_of_fresh ⟨freshNumber, hfresh, hrun⟩).login 5 si hinfo (by rw [huser]; decide)

end ChatServer
