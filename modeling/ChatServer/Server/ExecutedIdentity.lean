import ChatServer.Server.ConnectionIdentity

/-!
# The user a line is executed under

A line gets its user when the event loop parses it: the one the connection has at that moment. A
login changes it only later, when the worker has executed the login and the event loop has handled
the command that sets the user. A line that was parsed before that is executed under the old user,
as in the run `loginAndNick`, where a client sends a login and a change of its nickname at once and
is told to log in first.

The identities given to a connection are always the first ones that its login lines established
(`Attributed`). So in every run with fresh numbers a line is executed under the identity of the last
login line before it among those whose identity had been given to the connection when the line was
parsed (`executedAs_lastApplied`).
-/

set_option autoImplicit false
set_option relaxedAutoImplicit false

namespace ChatServer

/-- The last of the identities given to a connection, or no user. -/
def lastIdentity (identities : List Bytes) : Bytes :=
  identities.getLast?.getD []

theorem lastIdentity_append (identities : List Bytes) (identity : Option Bytes) :
    lastIdentity (identities ++ identity.toList) = identity.getD (lastIdentity identities) := by
  cases identity with
  | none => rw [Option.toList_none, List.append_nil, Option.getD_none]
  | some userId => simp [lastIdentity]

/-- The tasks of a connection that were executed, in this order. -/
def Ledger.executedOf (ledger : Ledger) (conn : Nat) : List Execution :=
  ledger.executed.filter fun execution ↦ decide (execution.entry.conn = conn)

/-- The identities that the login lines of a connection among these tasks established. -/
def identitiesIn (executed : List Execution) (conn : Nat) : List Bytes :=
  executed.filterMap fun execution ↦
    if execution.entry.conn = conn then execution.identity else none

theorem identitiesIn_append (first second : List Execution) (conn : Nat) :
    identitiesIn (first ++ second) conn = identitiesIn first conn ++ identitiesIn second conn :=
  List.filterMap_append

theorem identitiesIn_singleton (execution : Execution) (conn : Nat) :
    identitiesIn [execution] conn =
      if execution.entry.conn = conn then execution.identity.toList else [] := by
  unfold identitiesIn
  split_ifs with hsame
  · cases hidentity : execution.identity <;> simp [hsame, hidentity]
  · simp [hsame]

/-- The tasks of other connections establish nothing. -/
theorem identitiesIn_filter (executed : List Execution) (conn : Nat) :
    (executed.filter fun execution ↦ decide (execution.entry.conn = conn)).filterMap
      Execution.identity = identitiesIn executed conn := by
  rw [List.filterMap_filter, identitiesIn]
  simp only [decide_eq_true_eq]

/-- Every line is executed under the identity of the last login line before it. -/
def Ledger.ExecutedAsLastLogin (ledger : Ledger) : Prop :=
  ∀ conn before execution after, ledger.executedOf conn = before ++ execution :: after →
    execution.entry.task.userId = lastIdentity (before.filterMap Execution.identity)

/-! ### Identities under way -/

/-- The identity a command sets. -/
def RegistryCommand.identity : RegistryCommand → Option Bytes
  | .setUserId _ userId => some userId
  | _ => none

/-- The identity a queued command is to give to a connection. -/
def Queued.identifies (conn : Nat) (queued : Queued) : Option Bytes :=
  if queued.conn = conn then queued.command.identity else none

section Tasks

variable [LinearOrder Bytes] {env : DbEnv} {task : Task} {db : Database Bytes}

/-- A task sets the identity it establishes, and no other. -/
theorem Executes.identity {next : Database Bytes} {commands : List RegistryCommand}
    {identity : Option Bytes} (hexecutes : Executes env task db next commands identity) :
    commands.filterMap RegistryCommand.identity = identity.toList := by
  have hrefresh : ∀ (make : List Int → RegistryCommand) (rooms : Except DbError (List Int)),
      (∀ roomIds, (make roomIds).identity = none) →
      (DbExecutor.refresh make rooms).filterMap RegistryCommand.identity = [] := by
    intro make rooms hmake
    refine List.filterMap_eq_nil_iff.mpr fun command hcommand ↦ ?_
    obtain ⟨roomIds, rfl⟩ := mem_refresh hcommand
    exact hmake roomIds
  cases hexecutes with
  | quiet _ hsame => rfl
  | login id pw hcmd haccepted => rfl
  | logout id pw hcmd => rfl
  | say roomId id message _ hwrite => rfl
  | createRoom roomName roomId _ hcmd huser hok hwrite => exact hrefresh _ _ fun _ ↦ rfl
  | deleteRoom value roomId _ hcmd hroom huser hok hwrite => exact hrefresh _ _ fun _ ↦ rfl
  | inviteRoom value friendUserId roomId _ hcmd huser hwrite =>
    rw [List.filterMap_append, hrefresh _ _ fun _ ↦ rfl, hrefresh _ _ fun _ ↦ rfl]
    rfl
  | leaveRoom value roomId _ hcmd hroom huser hok hwrite => exact hrefresh _ _ fun _ ↦ rfl

theorem identities_execute :
    (DbExecutor.execute env task db).2.filterMap RegistryCommand.identity =
      (establishes env task db).toList := by
  rw [← (@executes_execute _ env task db).identity, relevantOf, List.filterMap_filter]
  refine List.filterMap_congr fun command _ ↦ ?_
  cases command <;> rfl

end Tasks

namespace Pipeline

variable {pipeline : Pipeline}

/-- The identities that the commands under way are to give to a connection. -/
def outstanding (pipeline : Pipeline) (conn : Nat) : List Bytes :=
  (pipeline.queued ++ pipeline.todo).filterMap (Queued.identifies conn)

/-- What the record says about the identity of a connection is what the command sets there. -/
theorem valuesOf_identified (howned : pipeline.Owned) {fd : Int} {conn : Nat}
    (hconn : pipeline.registeredAt fd = some conn) (command : RegistryCommand) :
    valuesOf conn (identified pipeline.kernel pipeline.registry command) =
      (command.setsUser fd).toList := by
  obtain ⟨hmem, hopen⟩ := registeredAt_eq_some.mp hconn
  cases command with
  | setUserId target userId =>
    unfold identified RegistryCommand.setsUser
    dsimp only
    by_cases hsame : target = fd
    · rw [hsame, if_pos hmem, hopen, if_pos rfl, Option.map_some, Option.toList_some,
        valuesOf_singleton, if_pos rfl]
      rfl
    · rw [if_neg hsame]
      split_ifs with htarget
      · obtain ⟨other, hother⟩ := howned.registered target htarget
        have hne : other ≠ conn := by
          rintro rfl
          exact hsame (howned.injective target fd other hother hopen)
        rw [hother, Option.map_some, Option.toList_some, valuesOf_singleton, if_neg hne]
        rfl
      · rfl
  | _ => rfl

/-- The first command sets the identity of a registered connection exactly when it is for it. -/
theorem setsUser_eq_identifies (hplaced : pipeline.Placed)
    (haligned : pipeline.Aligned fun _ ↦ true) {queued : Queued} {rest : List Queued}
    (hqueued : pipeline.queued = queued :: rest) {fd : Int} {conn : Nat}
    (hconn : pipeline.registeredAt fd = some conn) :
    queued.command.setsUser fd = queued.identifies conn := by
  have hmem : queued ∈ pipeline.queued ++ pipeline.todo := by
    rw [hqueued]
    exact List.mem_append_left _ List.mem_cons_self
  unfold Queued.identifies
  cases hcommand : queued.command with
  | setUserId target userId =>
    have htarget : queued.command.target = some target := by
      rw [hcommand]
      rfl
    show (if target = fd then some userId else none) = if _ then some userId else none
    refine if_congr ⟨?_, ?_⟩ rfl rfl
    · rintro rfl
      exact (haligned.target_registeredAt hqueued rfl htarget hconn).symm
    · rintro rfl
      obtain ⟨held, hheld, hdirected⟩ := hplaced.commands queued hmem (by rw [hcommand]; rfl)
      exact (hdirected target htarget).trans (hheld.only fd hconn).symm
  | _ => exact (ite_self none).symm

/-- A connection that is not registered yet has done nothing. -/
theorem Placed.no_history (hplaced : pipeline.Placed) {owner : Int × Nat}
    (howner : owner ∈ pipeline.owners) :
    identitiesIn pipeline.ledger.executed owner.2 = [] ∧ pipeline.outstanding owner.2 = [] := by
  refine ⟨List.filterMap_eq_nil_iff.mpr fun execution hexecution ↦ if_neg fun hsame ↦ ?_,
    List.filterMap_eq_nil_iff.mpr fun queued hqueued ↦ ?_⟩
  · exact (hplaced.executed execution hexecution).notOwner owner howner hsame.symm
  · unfold Queued.identifies
    split_ifs with hsame
    · cases hcommand : queued.command with
      | setUserId target userId =>
        obtain ⟨fd, hheld, -⟩ := hplaced.commands queued hqueued (by rw [hcommand]; rfl)
        exact absurd hsame.symm (hheld.notOwner owner howner)
      | _ => rfl
    · rfl

/-- Nothing is recorded for a connection that is not registered. -/
theorem valuesOf_identified_of_unregistered {conn : Nat}
    (hconn : ∀ fd, pipeline.registeredAt fd ≠ some conn) (command : RegistryCommand) :
    valuesOf conn (identified pipeline.kernel pipeline.registry command) = [] := by
  cases command with
  | setUserId target userId =>
    unfold identified
    dsimp only
    split_ifs with hmem
    · cases hopen : pipeline.kernel.conn target with
      | none => rfl
      | some other =>
        have hne : other ≠ conn := by
          rintro rfl
          exact hconn target (registeredAt_eq_some.mpr ⟨hmem, hopen⟩)
        rw [Option.map_some, Option.toList_some, valuesOf_singleton, if_neg hne]
    · rfl
  | _ => rfl

/-- The task was given the last of the identities its connection had been given, and these were the
first ones established. -/
structure Recorded (established : List Bytes) (entry : TaskEntry) : Prop where
  applied : entry.applied <+: established
  userId : entry.task.userId = lastIdentity entry.applied

/-- The identities given to a connection are the first ones that its login lines established, and
every line got the last one given. -/
structure Attributed (pipeline : Pipeline) : Prop where
  user : ∀ fd si conn, pipeline.registry.infos.lookup fd = some si →
    pipeline.registeredAt fd = some conn →
      si.userId = lastIdentity (pipeline.ledger.appliedOf conn)
  applied : ∀ conn, pipeline.ledger.appliedOf conn <+: identitiesIn pipeline.ledger.executed conn
  complete : ∀ fd conn, pipeline.registeredAt fd = some conn →
    identitiesIn pipeline.ledger.executed conn =
      pipeline.ledger.appliedOf conn ++ pipeline.outstanding conn
  tasks : ∀ entry ∈ pipeline.tasks,
    Recorded (identitiesIn pipeline.ledger.executed entry.conn) entry
  executed : ∀ before execution after, pipeline.ledger.executed = before ++ execution :: after →
    Recorded (identitiesIn before execution.entry.conn) execution.entry

theorem attributed_start : ServerState.start.pipeline.Attributed where
  user fd si conn hinfo := by cases hinfo
  applied conn := List.prefix_refl _
  complete fd conn hconn := rfl
  tasks entry hentry := by cases hentry
  executed before execution after hsplit := by
    have hnil : ([] : List Execution) = before ++ execution :: after := hsplit
    simp at hnil

theorem Attributed.accepted (hattributed : pipeline.Attributed) (howned : pipeline.Owned)
    {fd : Int} (hclosed : fd ∉ pipeline.kernel.sockets) : (pipeline.accepted fd).Attributed := by
  have hsame := registeredAt_accepted howned hclosed
  refine ⟨fun other si conn hinfo hconn ↦ ?_, hattributed.applied, fun other conn hconn ↦ ?_,
    hattributed.tasks, hattributed.executed⟩
  · exact hattributed.user other si conn hinfo ((hsame other).symm.trans hconn)
  · exact hattributed.complete other conn ((hsame other).symm.trans hconn)

theorem Attributed.registering (hattributed : pipeline.Attributed) (fd : Int) (conn : Nat) :
    (pipeline.registering fd conn).Attributed := by
  refine ⟨hattributed.user, hattributed.applied, fun other serial hconn ↦ ?_, hattributed.tasks,
    hattributed.executed⟩
  have hsame : (pipeline.registering fd conn).outstanding serial =
      pipeline.outstanding serial := by
    simp [outstanding, Pipeline.registering, Queued.identifies, RegistryCommand.identity]
  rw [hsame]
  exact hattributed.complete other serial hconn

theorem Attributed.handled (hattributed : pipeline.Attributed) (howned : pipeline.Owned)
    (hplaced : pipeline.Placed) (haligned : pipeline.Aligned fun _ ↦ true) (env : HandlerEnv)
    {queued : Queued} {rest : List Queued} (hqueued : pipeline.queued = queued :: rest) :
    (pipeline.handled env queued rest).Attributed := by
  have hhandles := howned.handles env hqueued
  have happlied : ∀ conn, (pipeline.handled env queued rest).ledger.appliedOf conn =
      pipeline.ledger.appliedOf conn ++
        valuesOf conn (identified pipeline.kernel pipeline.registry queued.command) :=
    fun conn ↦ valuesOf_append conn _ _
  have houtstanding : ∀ conn, pipeline.outstanding conn = (queued.identifies conn).toList ++
      (pipeline.handled env queued rest).outstanding conn := by
    intro conn
    rw [outstanding, hqueued, List.cons_append, List.filterMap_cons]
    cases queued.identifies conn <;> rfl
  have hold : ∀ fd conn, pipeline.registeredAt fd = some conn →
      (pipeline.handled env queued rest).ledger.appliedOf conn =
          pipeline.ledger.appliedOf conn ++ (queued.command.setsUser fd).toList ∧
        identitiesIn pipeline.ledger.executed conn =
          (pipeline.handled env queued rest).ledger.appliedOf conn ++
            (pipeline.handled env queued rest).outstanding conn := by
    intro fd conn hconn
    have hsets := setsUser_eq_identifies hplaced haligned hqueued hconn
    have hvalues := valuesOf_identified howned hconn queued.command
    refine ⟨by rw [happlied, hvalues], ?_⟩
    rw [hattributed.complete fd conn hconn, houtstanding, happlied, hvalues, hsets,
      List.append_assoc]
  -- a connection that is registered by this command has done nothing
  have hnew : ∀ fd conn, queued.command.registers = some fd →
      (pipeline.handled env queued rest).kernel.conn fd = some conn →
      identitiesIn pipeline.ledger.executed conn = [] ∧
        (pipeline.handled env queued rest).ledger.appliedOf conn = [] ∧
        (pipeline.handled env queued rest).outstanding conn = [] := by
    intro fd conn hregisters hconn
    obtain ⟨interest, hcommand⟩ := RegistryCommand.registers_eq_some.mp hregisters
    have hmem : queued ∈ pipeline.queued := hqueued ▸ List.mem_cons_self
    have hown := hhandles.closed fd conn hconn
    rw [(howned.register_fresh hmem hregisters).1, Option.some.injEq] at hown
    have howner : (fd, conn) ∈ pipeline.owners := by
      rw [owners_handled env hqueued, hregisters, ← hown]
      exact List.mem_append_left _ (List.mem_singleton.mpr rfl)
    obtain ⟨hestablished, hnone⟩ := hplaced.no_history howner
    have hprefix := hattributed.applied conn
    rw [show identitiesIn pipeline.ledger.executed conn = [] from hestablished,
      List.prefix_nil] at hprefix
    have hnothing := (houtstanding conn).symm.trans hnone
    refine ⟨hestablished, ?_, (List.append_eq_nil_iff.mp hnothing).2⟩
    rw [happlied, hprefix, hcommand]
    rfl
  refine ⟨fun fd si' conn hinfo hconn ↦ ?_, fun conn ↦ ?_, fun fd conn hconn ↦ ?_,
    hattributed.tasks, hattributed.executed⟩
  · rcases EpollRegistry.userId_handleCommand howned.consistent env hinfo with
      ⟨si, hsi, huser⟩ | ⟨hnone, huser⟩
    · have hconn' : pipeline.registeredAt fd = some conn := registeredAt_eq_some.mpr
        ⟨Finmap.mem_of_lookup_eq_some hsi,
          hhandles.closed fd conn (registeredAt_eq_some.mp hconn).2⟩
      rw [huser, (hold fd conn hconn').1, lastIdentity_append,
        hattributed.user fd si conn hsi hconn']
    · have hregisters : queued.command.registers = some fd := by
        refine (registeredAt_handled howned env hqueued fd conn hconn).resolve_left fun hconn' ↦ ?_
        exact Finmap.lookup_eq_none.mp hnone (registeredAt_eq_some.mp hconn').1
      rw [huser, (hnew fd conn hregisters (registeredAt_eq_some.mp hconn).2).2.1]
      rfl
  · show _ <+: identitiesIn pipeline.ledger.executed conn
    by_cases hregistered : ∃ fd, pipeline.registeredAt fd = some conn
    · obtain ⟨fd, hconn⟩ := hregistered
      rw [(hold fd conn hconn).2]
      exact List.prefix_append _ _
    · rw [happlied, valuesOf_identified_of_unregistered (not_exists.mp hregistered),
        List.append_nil]
      exact hattributed.applied conn
  · show identitiesIn pipeline.ledger.executed conn = _
    rcases registeredAt_handled howned env hqueued fd conn hconn with hconn' | hregisters
    · exact (hold fd conn hconn').2
    · obtain ⟨hestablished, hnone, hnothing⟩ :=
        hnew fd conn hregisters (registeredAt_eq_some.mp hconn).2
      rw [hestablished, hnone, hnothing, List.append_nil]

theorem Attributed.dispatched (hattributed : pipeline.Attributed) (howned : pipeline.Owned)
    {fd : Int} {si : SocketInfo} {result : Dispatched}
    (hinfo : pipeline.registry.infos.lookup fd = some si) (hresult : Dispatches si result) :
    (pipeline.dispatched fd si result).Attributed := by
  have hsame := registeredAt_dispatched hinfo result
  have houtstanding : ∀ conn, (pipeline.dispatched fd si result).outstanding conn =
      pipeline.outstanding conn := by
    intro conn
    have hnone : (result.requests.map fun command ↦
        ({ command := command, conn := pipeline.kernel.connOf fd } : Queued)).filterMap
          (Queued.identifies conn) = [] := by
      refine List.filterMap_eq_nil_iff.mpr fun queued hqueued ↦ ?_
      obtain ⟨command, hcommand, rfl⟩ := List.mem_map.mp hqueued
      rcases hresult.requests command hcommand with rfl | ⟨message, rfl⟩ <;> exact ite_self none
    unfold outstanding Pipeline.dispatched
    dsimp only
    rw [List.filterMap_append, List.filterMap_append, hnone, List.append_nil,
      ← List.filterMap_append]
  refine ⟨fun other si' conn hother hconn ↦ ?_, hattributed.applied, fun other conn hconn ↦ ?_,
    fun entry hentry ↦ ?_, hattributed.executed⟩
  · rw [hsame] at hconn
    rcases EpollRegistry.lookup_insert_eq_some.mp hother with ⟨rfl, rfl⟩ | ⟨-, hold⟩
    · rw [hresult.identity.userId]
      exact hattributed.user other si conn hinfo hconn
    · exact hattributed.user other si' conn hold hconn
  · rw [houtstanding]
    exact hattributed.complete other conn ((hsame other).symm.trans hconn)
  · rcases List.mem_append.mp hentry with hold | hnew
    · exact hattributed.tasks entry hold
    · obtain ⟨task, htask, rfl⟩ := Option.map_eq_some_iff.mp (Option.mem_toList.mp hnew)
      refine ⟨hattributed.applied _, (hresult.task_identity htask).2.trans ?_⟩
      exact hattributed.user fd si _ hinfo (howned.registeredAt_connOf hinfo)

/-- The last element of a list that is split. -/
theorem split_concat {Elem : Type} {list before after : List Elem} {last elem : Elem}
    (hsplit : list ++ [last] = before ++ elem :: after) :
    (before = list ∧ elem = last) ∨ ∃ rest, list = before ++ elem :: rest := by
  rcases List.eq_nil_or_concat after with rfl | ⟨rest, other, rfl⟩
  · obtain ⟨hbefore, hlast⟩ := List.append_inj' hsplit rfl
    exact Or.inl ⟨hbefore.symm, (List.cons.inj hlast).1.symm⟩
  · rw [List.concat_eq_append, ← List.cons_append, ← List.append_assoc] at hsplit
    exact Or.inr ⟨rest, (List.append_inj' hsplit rfl).1⟩

theorem Attributed.taken [LinearOrder Bytes] (hattributed : pipeline.Attributed) (env : DbEnv)
    {entry : TaskEntry} {rest : List TaskEntry} (htodo : pipeline.todo = [])
    (htasks : pipeline.tasks = entry :: rest) : (pipeline.taken env entry rest).Attributed := by
  have hgrows : ∀ conn, identitiesIn (pipeline.taken env entry rest).ledger.executed conn =
      identitiesIn pipeline.ledger.executed conn ++
        if entry.conn = conn then (establishes env entry.task pipeline.db).toList else [] := by
    intro conn
    rw [Pipeline.taken, identitiesIn_append, identitiesIn_singleton]
  have houtstanding : ∀ conn, (pipeline.taken env entry rest).outstanding conn =
      pipeline.outstanding conn ++
        if entry.conn = conn then (establishes env entry.task pipeline.db).toList else [] := by
    intro conn
    unfold outstanding Pipeline.taken
    dsimp only
    rw [htodo, List.append_nil, List.filterMap_append, List.filterMap_map]
    congr 1
    split_ifs with hsame
    · rw [← identities_execute]
      exact List.filterMap_congr fun command _ ↦ if_pos hsame
    · exact List.filterMap_eq_nil_iff.mpr fun command _ ↦ if_neg hsame
  refine ⟨hattributed.user, fun conn ↦ ?_, fun fd conn hconn ↦ ?_, fun other hother ↦ ?_,
    fun before execution after hsplit ↦ ?_⟩
  · rw [hgrows]
    exact (hattributed.applied conn).trans (List.prefix_append _ _)
  · rw [hgrows, houtstanding, hattributed.complete fd conn hconn, List.append_assoc]
    rfl
  · obtain ⟨happlied, huser⟩ := hattributed.tasks other (htasks ▸ List.mem_cons_of_mem _ hother)
    refine ⟨?_, huser⟩
    rw [hgrows]
    exact happlied.trans (List.prefix_append _ _)
  · rcases split_concat hsplit with ⟨rfl, rfl⟩ | ⟨later, hearlier⟩
    · exact hattributed.tasks entry (htasks ▸ List.mem_cons_self)
    · exact hattributed.executed before execution later hearlier

theorem Attributed.pushed (hattributed : pipeline.Attributed) {queued : Queued}
    {rest : List Queued} (htodo : pipeline.todo = queued :: rest) :
    (pipeline.pushed queued rest).Attributed := by
  refine ⟨hattributed.user, hattributed.applied, fun fd conn hconn ↦ ?_, hattributed.tasks,
    hattributed.executed⟩
  have hsame : (pipeline.pushed queued rest).outstanding conn = pipeline.outstanding conn := by
    unfold outstanding Pipeline.pushed
    rw [htodo, List.append_assoc, List.singleton_append]
  rw [hsame]
  exact hattributed.complete fd conn hconn

end Pipeline

/-- In every run with fresh numbers the identities given to a connection are the first ones that its
login lines established. -/
theorem attributed_of_fresh [LinearOrder Bytes] {state : ServerState}
    (hreach : chatServer.ReachableUnder FreshDescriptor state) : state.pipeline.Attributed := by
  refine pipeline_induction Pipeline.attributed_start ?_ hreach
  intro state label next hreach hattributed _ hstep
  have howned := owned_of_reachable hreach
  cases hstep with
  | accept fd hfd hclosed hidle => exact hattributed.accepted howned hclosed
  | register fd conn hacceptor => exact hattributed.registering fd conn
  | handle env queued rest hqueued =>
    exact hattributed.handled howned (placed_of_reachable hreach) (aligned_of_fresh hreach) env
      hqueued
  | dispatch env fd si result hinfo hresult => exact hattributed.dispatched howned hinfo hresult
  | take env entry rest htodo htasks => exact hattributed.taken env htodo htasks
  | push queued rest htodo => exact hattributed.pushed htodo

/-! ### Lines and tasks -/

/-- The tasks executed and those waiting are the tasks queued, in this order, and those of a
connection are its lines that decode to a command of the database executor. -/
structure Pipeline.Journal (pipeline : Pipeline) : Prop where
  order : pipeline.ledger.enqueued =
    pipeline.ledger.executed.map Execution.entry ++ pipeline.tasks
  lines : ∀ conn, ((pipeline.ledger.enqueued.filter fun entry ↦ decide (entry.conn = conn)).map
      fun entry ↦ entry.task.cmd) =
    (pipeline.ledger.linesOf conn).filterMap EpollServer.dbCommandOf

theorem Pipeline.Journal.dispatched {pipeline : Pipeline} (hjournal : pipeline.Journal) {fd : Int}
    {si : SocketInfo} {result : Dispatched} (hresult : Dispatches si result) :
    (pipeline.dispatched fd si result).Journal := by
  refine ⟨?_, fun conn ↦ ?_⟩
  · show pipeline.ledger.enqueued ++ _ = _ ++ (pipeline.tasks ++ _)
    rw [hjournal.order, List.append_assoc]
    rfl
  · rw [linesOf_dispatched, List.filterMap_append, ← hjournal.lines]
    unfold Pipeline.dispatched
    dsimp only
    rw [List.filter_append, List.map_append]
    congr 1
    have hline := hresult.line
    cases hparsed : result.line with
    | none =>
      simp only [hparsed] at hline
      rw [hline.2]
      simp
    | some line =>
      simp only [hparsed] at hline
      rw [hline.2.2.2]
      cases hcmd : EpollServer.dbCommandOf line <;>
        by_cases hconn : pipeline.kernel.connOf fd = conn <;> simp [hcmd, hconn]

theorem journal_of_reachable [LinearOrder Bytes] {condition : ServerState → ServerLabel → Prop}
    {state : ServerState} (hreach : chatServer.ReachableUnder condition state) :
    state.pipeline.Journal := by
  have hstart : ServerState.start.pipeline.Journal := ⟨rfl, fun _ ↦ rfl⟩
  refine pipeline_induction hstart ?_ hreach
  intro state label next _ hjournal _ hstep
  cases hstep with
  | dispatch env fd si result hinfo hresult => exact hjournal.dispatched hresult
  | take env entry rest htodo htasks =>
    refine ⟨?_, hjournal.lines⟩
    show state.pipeline.ledger.enqueued = _
    rw [hjournal.order, htasks]
    simp [Pipeline.taken]
  | _ => exact ⟨hjournal.order, hjournal.lines⟩

/-! ### Lines sent together -/

/-- A client registers an account, and then sends the login and a change of the nickname, either
together or one after the other. -/
def loginAndNick (together : Bool) : List ServerLabel :=
  connecting 5 ++ round [] 1 [] ++ sending 5 [.cmdRegister (text "a") (text "p")] ++
    executing 1 ++ round [] 1 [] ++
    if together then
      sending 5 [.cmdLogin (text "a") (text "p"), .cmdNick (text "n")] ++ executing 4 ++ executing 1
    else
      sending 5 [.cmdLogin (text "a") (text "p")] ++ executing 4 ++ round [] 4 [] ++
        sending 5 [.cmdNick (text "n")] ++ executing 2

/-- The same lines are received in both runs. Sent together, the change of the nickname is executed
under no user; sent one after the other, it is executed under the user who logged in. -/
theorem loginAndNick_together :
    ∃ together apart,
      (@chatServer bytewise).run ServerState.start (loginAndNick true) = some together ∧
      (@chatServer bytewise).run ServerState.start (loginAndNick false) = some apart ∧
      together.ledger.linesOf 0 = apart.ledger.linesOf 0 ∧
      ¬ together.ledger.ExecutedAsLastLogin ∧
      (apart.ledger.executedOf 0).getLast?.map (fun execution ↦ execution.entry.task.userId) =
        some (text "a") := by
  let order := bytewise
  have htogether : ((chatServer.run ServerState.start (loginAndNick true)).map fun state ↦
      (state.ledger.linesOf 0,
        (state.ledger.executedOf 0).getLast?.map fun execution ↦ execution.entry.task.userId,
        lastIdentity ((state.ledger.executedOf 0).dropLast.filterMap Execution.identity))) =
      some ([text "register\ra\rp", text "login\ra\rp", text "nick\rn"], some [], text "a") := by
    decide +kernel
  have hapart : ((chatServer.run ServerState.start (loginAndNick false)).map fun state ↦
      (state.ledger.linesOf 0,
        (state.ledger.executedOf 0).getLast?.map fun execution ↦ execution.entry.task.userId)) =
      some ([text "register\ra\rp", text "login\ra\rp", text "nick\rn"], some (text "a")) := by
    decide +kernel
  obtain ⟨together, htogetherRun, hfacts⟩ := Option.map_eq_some_iff.mp htogether
  obtain ⟨apart, hapartRun, hfacts'⟩ := Option.map_eq_some_iff.mp hapart
  obtain ⟨hlines, hlast, hidentity⟩ :
      _ ∧ _ ∧ _ := by simpa only [Prod.mk.injEq] using hfacts
  obtain ⟨hlines', hlast'⟩ := Prod.mk.inj hfacts'
  refine ⟨together, apart, htogetherRun, hapartRun, hlines.trans hlines'.symm,
    fun hclaimed ↦ ?_, hlast'⟩
  obtain ⟨execution, hexecution, huser⟩ := Option.map_eq_some_iff.mp hlast
  obtain ⟨before, hbefore⟩ := List.getLast?_eq_some_iff.mp hexecution
  have hsame := hclaimed 0 before execution [] hbefore
  rw [hbefore, List.dropLast_concat] at hidentity
  rw [huser, hidentity] at hsame
  exact absurd hsame (by decide)

/-- In every run with fresh numbers: the tasks executed of a connection are its first lines that
decode to a command of the database executor; the identities a connection has been given are the
first ones that its login lines executed so far established; and a line is executed under the last
of those the connection had been given when it was parsed, which are the first ones that the login
lines before it established. -/
theorem executedAs_lastApplied [LinearOrder Bytes] {state : ServerState}
    (hreach : chatServer.ReachableUnder FreshDescriptor state) (conn : Nat) :
    ((state.ledger.executedOf conn).map fun execution ↦ execution.entry.task.cmd) <+:
        (state.ledger.linesOf conn).filterMap EpollServer.dbCommandOf ∧
      state.ledger.appliedOf conn <+:
        (state.ledger.executedOf conn).filterMap Execution.identity ∧
      ∀ before execution after, state.ledger.executedOf conn = before ++ execution :: after →
        execution.entry.applied <+: before.filterMap Execution.identity ∧
        execution.entry.task.userId = lastIdentity execution.entry.applied := by
  refine ⟨?_, ?_, ?_⟩
  · obtain ⟨horder, hlines⟩ := journal_of_reachable hreach
    refine ⟨(state.tasks.filter fun entry ↦ decide (entry.conn = conn)).map
      fun entry ↦ entry.task.cmd, ?_⟩
    show _ = (state.pipeline.ledger.linesOf conn).filterMap _
    rw [← hlines, horder, List.filter_append, List.map_append, List.filter_map, List.map_map]
    rfl
  · rw [Ledger.executedOf, identitiesIn_filter]
    exact (attributed_of_fresh hreach).applied conn
  · intro before execution after hsplit
    obtain ⟨first, second, hexecuted, hfirst, hsecond⟩ := List.filter_eq_append_iff.mp hsplit
    obtain ⟨skipped, rest, hsecond', hskipped, hown, -⟩ := List.filter_eq_cons_iff.mp hsecond
    have hrecorded := (attributed_of_fresh hreach).executed (first ++ skipped) execution rest (by
      show state.ledger.executed = _
      rw [hexecuted, hsecond', List.append_assoc])
    have hbefore : identitiesIn (first ++ skipped) execution.entry.conn =
        before.filterMap Execution.identity := by
      rw [of_decide_eq_true hown, ← identitiesIn_filter, List.filter_append, hfirst,
        List.filter_eq_nil_iff.mpr hskipped, List.append_nil]
    rw [hbefore] at hrecorded
    exact ⟨hrecorded.applied, hrecorded.userId⟩

theorem executedAs_lastApplied_apart :
    ∃ state, (@chatServer bytewise).run ServerState.start (loginAndNick false) = some state ∧
      ∃ before execution, state.ledger.executedOf 0 = before ++ [execution] ∧
        execution.entry.applied = [text "a"] ∧ execution.entry.task.userId = text "a" := by
  have hmeets : (@chatServer bytewise).Meets FreshDescriptor ServerState.start
      (loginAndNick false) := by decide +kernel
  let order := bytewise
  have hrun : ((chatServer.run ServerState.start (loginAndNick false)).map fun state ↦
      (state.ledger.executedOf 0).getLast?.map fun execution ↦ execution.entry.applied) =
      some (some [text "a"]) := by decide +kernel
  obtain ⟨state, hstate, hlast⟩ := Option.map_eq_some_iff.mp hrun
  obtain ⟨execution, hexecution, happlied⟩ := Option.map_eq_some_iff.mp hlast
  obtain ⟨before, hbefore⟩ := List.getLast?_eq_some_iff.mp hexecution
  refine ⟨state, hstate, before, execution, hbefore, happlied, ?_⟩
  rw [((executedAs_lastApplied ⟨_, hmeets, hstate⟩ 0).2.2 before execution [] hbefore).2, happlied]
  decide

end ChatServer
