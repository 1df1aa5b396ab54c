import ChatServer.Server.System

/-!
# The server as a pipeline

A command line travels through the server: it becomes a task, the task becomes commands the worker
has still to queue, these become queued commands, and the event loop handles them in order. Where
the event loop stands in its rounds and which thread holds a command do not matter for this.
`Pipeline` is the server without them, `Pipeline.Step` its steps, and `pipeline_step` says that
every action of the server is a step of the pipeline or leaves it as it is.

Before that, `Handles` says what the handling of a command does to the connections and to the
kernel, and `Dispatches` what a callback of the event loop does to the connection it runs on and
what it queues.
-/

set_option autoImplicit false
set_option relaxedAutoImplicit false

namespace ChatServer

/-! ### The kernel -/

namespace Kernel

theorem conn_foldl_apply (effects : List Effect) (kernel : Kernel) (fd : Int) :
    (effects.foldl Kernel.apply kernel).conn fd =
      if .closed fd ∈ effects then none else kernel.conn fd := by
  induction effects generalizing kernel with
  | nil => simp
  | cons effect rest ih =>
    rw [List.foldl_cons, ih]
    cases effect with
    | closed other =>
      by_cases hsame : other = fd
      · simp [Kernel.apply, Kernel.conn, hsame]
      · have hne : fd ≠ other := Ne.symm hsame
        simp [Kernel.apply, Kernel.conn, Finmap.lookup_erase_ne hne, hne]
    | watched other => simp [Kernel.apply, Kernel.conn]
    | appended other userId cmd => simp [Kernel.apply]
    | dangling other => simp [Kernel.apply]

theorem mem_interest_foldl_apply {effects : List Effect} (hwatched : ∀ fd, .watched fd ∉ effects)
    (kernel : Kernel) (fd : Int) :
    fd ∈ (effects.foldl Kernel.apply kernel).interest ↔
      fd ∈ kernel.interest ∧ .closed fd ∉ effects := by
  induction effects generalizing kernel with
  | nil => simp
  | cons effect rest ih =>
    have hrest : ∀ fd, .watched fd ∉ rest :=
      fun fd hmem ↦ hwatched fd (List.mem_cons_of_mem _ hmem)
    rw [List.foldl_cons, ih hrest]
    cases effect with
    | closed other =>
      simp only [Kernel.apply, Finset.mem_erase, List.mem_cons, Effect.closed.injEq]
      tauto
    | watched other => exact absurd List.mem_cons_self (hwatched other)
    | appended other userId cmd => simp [Kernel.apply]
    | dangling other => simp [Kernel.apply]

theorem nextConn_foldl_apply (effects : List Effect) (kernel : Kernel) :
    (effects.foldl Kernel.apply kernel).nextConn = kernel.nextConn := by
  induction effects generalizing kernel with
  | nil => rfl
  | cons effect rest ih =>
    rw [List.foldl_cons, ih]
    cases effect <;> rfl

end Kernel

/-! ### Handling a command -/

/-- The descriptor a command registers. -/
def RegistryCommand.registers : RegistryCommand → Option Int
  | .register fd _ => some fd
  | _ => none

theorem RegistryCommand.registers_eq_some {command : RegistryCommand} {fd : Int} :
    command.registers = some fd ↔ ∃ interest, command = .register fd interest := by
  cases command <;> simp [RegistryCommand.registers]

/-- What the handling of a command may do: connections leave and their descriptors are closed, or
one connection is registered, or its descriptor is closed. -/
structure Handles (command : RegistryCommand) (kernel kernel' : Kernel)
    (registry registry' : EpollRegistry) : Prop where
  consistent : registry'.Consistent
  kept : ∀ fd si', registry'.infos.lookup fd = some si' →
    (∃ si, registry.infos.lookup fd = some si ∧ si'.recv = si.recv) ∨
      (command.registers = some fd ∧ si'.recv.currentData = [])
  conn : ∀ fd, fd ∈ registry'.infos → kernel'.conn fd = kernel.conn fd
  other : ∀ fd, fd ∉ registry.infos → command.registers ≠ some fd →
    kernel'.conn fd = kernel.conn fd
  closed : ∀ fd conn, kernel'.conn fd = some conn → kernel.conn fd = some conn
  interest : ∀ fd, fd ∈ kernel'.interest → fd ∈ registry'.infos
  nextConn : kernel'.nextConn = kernel.nextConn

theorem Handles.mem {command : RegistryCommand} {kernel kernel' : Kernel}
    {registry registry' : EpollRegistry}
    (hhandles : Handles command kernel kernel' registry registry') {fd : Int}
    (hfd : fd ∈ registry'.infos) :
    fd ∈ registry.infos ∨ command.registers = some fd := by
  obtain ⟨si', hinfo⟩ := Finmap.mem_iff.mp hfd
  rcases hhandles.kept fd si' hinfo with ⟨si, hsi, -⟩ | ⟨hregisters, -⟩
  · exact Or.inl (Finmap.mem_of_lookup_eq_some hsi)
  · exact Or.inr hregisters

section Handle

variable {registry : EpollRegistry} {kernel : Kernel}

/-- Every command but a registration. -/
theorem handles_of_evolves (hconsistent : registry.Consistent)
    (hinterest : ∀ fd, fd ∈ kernel.interest → fd ∈ registry.infos) (env : HandlerEnv)
    {command : RegistryCommand} (hcommand : command.registers = none) :
    Handles command kernel
      ((registry.handleCommand env command).2.foldl Kernel.apply kernel) registry
      (registry.handleCommand env command).1 := by
  have hnot : ∀ fd interest, command ≠ .register fd interest := by
    rintro fd interest rfl
    cases hcommand
  have hevolves := EpollRegistry.evolves_handleCommand hconsistent env hnot
  refine ⟨hconsistent.handleCommand env command,
    fun fd si' hinfo ↦ Or.inl (hevolves.kept fd si' hinfo), fun fd hfd ↦ ?_, fun fd hfd _ ↦ ?_,
    fun fd conn hconn ↦ ?_, fun fd hfd ↦ ?_, Kernel.nextConn_foldl_apply _ _⟩
  · rw [Kernel.conn_foldl_apply, if_neg]
    intro hclosed
    exact ((hevolves.closed fd).mp hclosed).2 hfd
  · rw [Kernel.conn_foldl_apply, if_neg]
    intro hclosed
    exact hfd ((hevolves.closed fd).mp hclosed).1
  · rw [Kernel.conn_foldl_apply] at hconn
    split_ifs at hconn
    exact hconn
  · rw [Kernel.mem_interest_foldl_apply hevolves.watched, hevolves.closed] at hfd
    have hmem := hinterest fd hfd.1
    by_contra hgone
    exact hfd.2 ⟨hmem, hgone⟩

/-- A registration of a descriptor that no connection has. -/
theorem handles_register (hconsistent : registry.Consistent)
    (hinterest : ∀ fd, fd ∈ kernel.interest → fd ∈ registry.infos) (env : HandlerEnv) {fd : Int}
    (hfd : fd ≠ -1) (hfresh : fd ∉ registry.infos) (interest : UInt32) :
    Handles (.register fd interest) kernel
      ((registry.handleCommand env (.register fd interest)).2.foldl Kernel.apply kernel) registry
      (registry.handleCommand env (.register fd interest)).1 := by
  have hconsistent' := hconsistent.handleCommand env (.register fd interest)
  have hregister : (RegistryCommand.register fd interest).registers = some fd := rfl
  have hne : ∀ other, other ∈ registry.infos → other ≠ fd :=
    fun other hother hsame ↦ hfresh (hsame ▸ hother)
  change EpollRegistry.Consistent (registry.registerFd env fd interest).1 at hconsistent'
  change Handles _ _ ((registry.registerFd env fd interest).2.foldl Kernel.apply kernel) _
    (registry.registerFd env fd interest).1
  rcases @EpollRegistry.registerFd_of_notMem registry env fd hfd hfresh interest with
    ⟨hinfos, heffects⟩ | ⟨hsame, heffects⟩
  · -- the connection is registered
    rw [heffects]
    refine ⟨hconsistent', fun other si' hinfo ↦ ?_, fun _ _ ↦ rfl, fun _ _ _ ↦ rfl,
      fun _ _ hconn ↦ hconn, fun other hother ↦ ?_, rfl⟩
    · rw [hinfos] at hinfo
      rcases EpollRegistry.lookup_insert_eq_some.mp hinfo with ⟨rfl, rfl⟩ | ⟨-, hold⟩
      · exact Or.inr ⟨hregister, rfl⟩
      · exact Or.inl ⟨si', hold, rfl⟩
    · rw [hinfos, Finmap.mem_insert]
      rcases Finset.mem_insert.mp hother with hsame | hold
      · exact Or.inl hsame
      · exact Or.inr (hinterest other hold)
  · -- a call failed, and the descriptor is closed with the argument
    have hconn : ∀ other, other ≠ fd →
        ((registry.registerFd env fd interest).2.foldl Kernel.apply kernel).conn other =
          kernel.conn other := by
      intro other hother
      rw [Kernel.conn_foldl_apply, if_neg]
      rcases heffects with heffects | heffects <;> simp [heffects, hother]
    have hleft : ∀ other,
        other ∈ ((registry.registerFd env fd interest).2.foldl Kernel.apply kernel).interest →
          other ∈ kernel.interest := by
      intro other hother
      rcases heffects with heffects | heffects <;>
        simp only [heffects, List.foldl_cons, List.foldl_nil, Kernel.apply, Finset.mem_erase,
          Finset.mem_insert] at hother <;> tauto
    rw [hsame] at hconsistent' ⊢
    refine ⟨hconsistent', fun other si' hinfo ↦ Or.inl ⟨si', hinfo, rfl⟩,
      fun other hother ↦ hconn other (hne other hother),
      fun other _ hother ↦ hconn other fun hsame ↦ hother (hsame ▸ hregister),
      fun other conn hother ↦ ?_, fun other hother ↦ hinterest other (hleft other hother),
      Kernel.nextConn_foldl_apply _ _⟩
    rw [Kernel.conn_foldl_apply] at hother
    split_ifs at hother
    exact hother

end Handle

/-! ### A callback -/

/-- What a callback does to the connection it runs on: its identity stays, and either bytes arrive
at the end of the receive buffer, or the first line is taken out of it. What it queues is a task for
the line, or a request for this connection. -/
structure Dispatches (si : SocketInfo) (result : Dispatched) : Prop where
  identity : si.SameIdentity result.info
  requests : ∀ command ∈ result.requests, command = .unregister si.ufd ∨
    ∃ message, command = .sendOne si.ufd (.cmdResponse message)
  line : match result.line with
    | none => (∃ data, result.info.recv.currentData = si.recv.currentData ++ data) ∧
        result.task = none
    | some line => newline ∉ line ∧
        si.recv.currentData = line ++ newline :: result.info.recv.currentData ∧
        result.next = some .execute ∧
        result.task = (EpollServer.dbCommandOf line).map fun cmd ↦
          { cmd := cmd, fd := si.ufd, userId := si.userId }

/-- A task is queued for a line that decodes to its command, with the descriptor and the user of the
connection. -/
theorem Dispatches.task_line {si : SocketInfo} {result : Dispatched}
    (hresult : Dispatches si result) {task : Task} (htask : result.task = some task) :
    ∃ line, result.line = some line ∧ EpollServer.dbCommandOf line = some task.cmd := by
  have hline := hresult.line
  cases hparsed : result.line with
  | none =>
    simp only [hparsed, htask] at hline
    cases hline.2
  | some line =>
    simp only [hparsed, htask] at hline
    obtain ⟨cmd, hcmd, rfl⟩ := Option.map_eq_some_iff.mp hline.2.2.2.symm
    exact ⟨line, rfl, hcmd⟩

theorem Dispatches.task_identity {si : SocketInfo} {result : Dispatched}
    (hresult : Dispatches si result) {task : Task} (htask : result.task = some task) :
    task.fd = si.ufd ∧ task.userId = si.userId := by
  have hline := hresult.line
  cases hparsed : result.line with
  | none =>
    simp only [hparsed, htask] at hline
    cases hline.2
  | some line =>
    simp only [hparsed, htask] at hline
    obtain ⟨cmd, -, rfl⟩ := Option.map_eq_some_iff.mp hline.2.2.2.symm
    exact ⟨rfl, rfl⟩

theorem dispatches_of_calls {si : SocketInfo} {after : EpollServer.Called} {data : Bytes}
    (hcalls : EpollServer.Calls si after data) (next : Option Stage) :
    Dispatches si { info := after.1, requests := after.2, next := next } := by
  refine ⟨hcalls.receives.identity, fun command hcommand ↦ ?_,
    ⟨data, hcalls.receives.currentData⟩, rfl⟩
  rcases hcalls.requests with hnone | hunregister
  · dsimp only at hcommand
    rw [hnone] at hcommand
    cases hcommand
  · dsimp only at hcommand
    rw [hunregister] at hcommand
    exact Or.inl (List.mem_singleton.mp hcommand)

theorem dispatches_quiet (si : SocketInfo) (next : Option Stage) :
    Dispatches si { info := si, next := next } :=
  dispatches_of_calls (EpollServer.Calls.refl si) next

theorem dispatches_handleExecute (si : SocketInfo) :
    Dispatches si
      { info := (EpollServer.handleExecute si).info
        requests := (EpollServer.handleExecute si).requests
        task := (EpollServer.handleExecute si).task
        line := (EpollServer.handleExecute si).line
        next := if (EpollServer.handleExecute si).again then some .execute else none } := by
  by_cases hline : newline ∈ si.recv.currentData
  · obtain ⟨line, hparsed, hagain, hnewline, hdata, hidentity, htask, hrequests⟩ :=
      @EpollServer.handleExecute_of_mem si hline
    refine ⟨hidentity, fun command hcommand ↦ Or.inr ?_, ?_⟩
    · rcases hrequests with hnone | ⟨message, hsend⟩
      · dsimp only at hcommand
        rw [hnone] at hcommand
        cases hcommand
      · dsimp only at hcommand
        rw [hsend] at hcommand
        exact ⟨message, List.mem_singleton.mp hcommand⟩
    · simp only [hparsed, hagain, if_true]
      exact ⟨hnewline, hdata, trivial, htask⟩
  · rw [EpollServer.handleExecute_of_notMem hline]
    exact dispatches_quiet si none

/-- Every callback of the event loop. -/
theorem dispatches_dispatchStage (env : IoEnv) (stage : Stage) (event : UInt32)
    (si : SocketInfo) : Dispatches si (dispatchStage env stage event si) := by
  unfold dispatchStage
  cases stage with
  | recv =>
    dsimp only
    by_cases herror : isErrorEvent event = true
    · rw [if_pos herror]
      exact dispatches_of_calls (EpollServer.calls_handleClientError si) none
    rw [if_neg herror]
    by_cases hread : isReadEvent event = true
    · rw [if_pos hread]
      obtain ⟨data, -, hcalls⟩ := EpollServer.calls_handleRecv env event si
      exact dispatches_of_calls hcalls _
    · rw [if_neg hread]
      exact dispatches_quiet si (some .send)
  | send =>
    dsimp only
    by_cases hwrite : isWriteEvent event = true
    · rw [if_pos hwrite]
      exact dispatches_of_calls (EpollServer.calls_handleSend env si) (some .execute)
    · rw [if_neg hwrite]
      exact dispatches_quiet si (some .execute)
  | execute =>
    dsimp only
    by_cases hread : isReadEvent event = true
    · rw [if_pos hread]
      exact dispatches_handleExecute si
    · rw [if_neg hread]
      exact dispatches_quiet si none

/-! ### The pipeline -/

/-- The server without the phases of the event loop: `queued` are the commands queued and not yet
handled, swapped out or not, and `todo` those the worker has still to queue. -/
structure Pipeline where
  kernel : Kernel
  acceptor : Option (Int × Nat)
  registry : EpollRegistry
  queued : List Queued
  todo : List Queued
  tasks : List TaskEntry
  db : Database Bytes
  ledger : Ledger

/-- The pipeline in a state of the server. -/
def ServerState.pipeline (state : ServerState) : Pipeline where
  kernel := state.kernel
  acceptor := state.acceptor
  registry := state.registry
  queued := state.queued
  todo := state.todo
  tasks := state.tasks
  db := state.db
  ledger := state.ledger

namespace Pipeline

/-- A connection is accepted. -/
def accepted (pipeline : Pipeline) (fd : Int) : Pipeline :=
  { pipeline with
    kernel := { pipeline.kernel with
      sockets := pipeline.kernel.sockets.insert fd pipeline.kernel.nextConn
      nextConn := pipeline.kernel.nextConn + 1 }
    acceptor := some (fd, pipeline.kernel.nextConn) }

/-- The accepted connection is queued for registration. -/
def registering (pipeline : Pipeline) (fd : Int) (conn : Nat) : Pipeline :=
  { pipeline with
    acceptor := none
    queued := pipeline.queued ++
      [{ command := .register fd (epollIn ||| epollRdhup), conn := conn }] }

/-- The first command is handled. -/
def handled (pipeline : Pipeline) (env : HandlerEnv) (queued : Queued) (rest : List Queued) :
    Pipeline :=
  let result := pipeline.registry.handleCommand env queued.command
  { pipeline with
    kernel := result.2.foldl Kernel.apply pipeline.kernel
    registry := result.1
    queued := rest
    ledger := { pipeline.ledger with
      applied := pipeline.ledger.applied ++
        identified pipeline.kernel pipeline.registry queued.command
      deliveries := pipeline.ledger.deliveries ++ delivered pipeline.kernel queued result.2 } }

/-- A callback ran on the connection at a descriptor. -/
def dispatched (pipeline : Pipeline) (fd : Int) (si : SocketInfo) (result : Dispatched) :
    Pipeline :=
  let conn := pipeline.kernel.connOf fd
  let entries := (result.task.map fun task ↦
    { task := task, conn := conn, applied := pipeline.ledger.appliedOf conn : TaskEntry }).toList
  { pipeline with
    registry := pipeline.registry.setInfo fd result.info
    queued := pipeline.queued ++
      result.requests.map fun command ↦ { command := command, conn := conn }
    tasks := pipeline.tasks ++ entries
    ledger := { pipeline.ledger with
      received := pipeline.ledger.received ++
        [(conn, result.info.recv.currentData.drop si.recv.currentData.length)]
      lines := pipeline.ledger.lines ++ (result.line.map fun line ↦ (conn, line)).toList
      enqueued := pipeline.ledger.enqueued ++ entries } }

/-- A task is taken and its database calls are made. -/
def taken [LinearOrder Bytes] (pipeline : Pipeline) (env : DbEnv) (entry : TaskEntry)
    (rest : List TaskEntry) : Pipeline :=
  let result := DbExecutor.execute env entry.task pipeline.db
  let committed := result.1.messages.drop pipeline.db.messages.length
  { pipeline with
    tasks := rest
    todo := result.2.map (queuedOf entry result.1)
    db := result.1
    ledger := { pipeline.ledger with
      executed := pipeline.ledger.executed ++ [⟨entry, establishes env entry.task pipeline.db⟩]
      committed := pipeline.ledger.committed ++
        (if committed = [] then none else lastMessage result.1).toList } }

/-- The worker queues a command. -/
def pushed (pipeline : Pipeline) (queued : Queued) (rest : List Queued) : Pipeline :=
  { pipeline with queued := pipeline.queued ++ [queued], todo := rest }

/-- The steps of a pipeline, labelled with the actions of the server. -/
inductive Step [LinearOrder Bytes] (pipeline : Pipeline) : ServerLabel → Pipeline → Prop
  | accept (fd : Int) (hfd : 0 ≤ fd) (hclosed : fd ∉ pipeline.kernel.sockets)
      (hidle : pipeline.acceptor = none) : Step pipeline (.accept fd) (pipeline.accepted fd)
  | register (fd : Int) (conn : Nat) (hacceptor : pipeline.acceptor = some (fd, conn)) :
      Step pipeline .requestRegister (pipeline.registering fd conn)
  | handle (env : HandlerEnv) (queued : Queued) (rest : List Queued)
      (hqueued : pipeline.queued = queued :: rest) :
      Step pipeline (.handle env) (pipeline.handled env queued rest)
  | dispatch (env : IoEnv) (fd : Int) (si : SocketInfo) (result : Dispatched)
      (hinfo : pipeline.registry.infos.lookup fd = some si) (hresult : Dispatches si result) :
      Step pipeline (.dispatch env) (pipeline.dispatched fd si result)
  | take (env : DbEnv) (entry : TaskEntry) (rest : List TaskEntry)
      (htodo : pipeline.todo = []) (htasks : pipeline.tasks = entry :: rest) :
      Step pipeline (.take env) (pipeline.taken env entry rest)
  | push (queued : Queued) (rest : List Queued) (htodo : pipeline.todo = queued :: rest) :
      Step pipeline .push (pipeline.pushed queued rest)

variable {pipeline : Pipeline}

theorem linesOf_dispatched (fd : Int) (si : SocketInfo) (result : Dispatched) (conn : Nat) :
    (pipeline.dispatched fd si result).ledger.linesOf conn =
      pipeline.ledger.linesOf conn ++
        if pipeline.kernel.connOf fd = conn then result.line.toList else [] := by
  have hlines : (pipeline.dispatched fd si result).ledger.lines = pipeline.ledger.lines ++
      (result.line.map fun line ↦ (pipeline.kernel.connOf fd, line)).toList := rfl
  rw [Ledger.linesOf, hlines, valuesOf_append, ← Ledger.linesOf]
  cases result.line with
  | none => simp [valuesOf]
  | some line => rw [Option.map_some, Option.toList_some, valuesOf_singleton, Option.toList_some]

end Pipeline

theorem pipeline_registering (state : ServerState) (fd : Int) (conn : Nat) :
    (state.registering fd conn).pipeline = state.pipeline.registering fd conn := by
  simp [ServerState.pipeline, ServerState.registering, Pipeline.registering, ServerState.queued,
    ServerState.pending, ServerState.todo]

theorem pipeline_dispatched {state : ServerState} {stage : Stage} {event : Event}
    {rest : List Event} (hphase : state.phase = .dispatching stage (event :: rest))
    (si : SocketInfo) (result : Dispatched) :
    (state.dispatched event rest si result).pipeline =
      state.pipeline.dispatched event.fd si result := by
  cases hstage : result.next <;>
    simp [ServerState.pipeline, ServerState.dispatched, Pipeline.dispatched, ServerState.queued,
      ServerState.pending, ServerState.todo, hphase, hstage]

theorem pipeline_pushed (state : ServerState) (entry : TaskEntry) (queued : Queued)
    (todo : List Queued) :
    (state.pushed entry queued todo).pipeline = state.pipeline.pushed queued todo := by
  simp [ServerState.pipeline, ServerState.pushed, Pipeline.pushed, ServerState.queued,
    ServerState.pending, ServerState.todo]

/-- Every action of the server is a step of the pipeline, or leaves it as it is. -/
theorem pipeline_step [LinearOrder Bytes] {state next : ServerState} {label : ServerLabel}
    (htransition : Transition state label next) :
    next.pipeline = state.pipeline ∨ state.pipeline.Step label next.pipeline := by
  cases htransition with
  | accept fd hfd hclosed hidle => exact Or.inr (.accept fd hfd hclosed hidle)
  | requestRegister fd conn hacceptor =>
    rw [pipeline_registering]
    exact Or.inr (.register fd conn hacceptor)
  | epollWait events hphase hinterest hnodup =>
    refine Or.inl ?_
    simp [ServerState.pipeline, ServerState.awake, ServerState.queued, ServerState.pending,
      ServerState.todo, hphase]
  | swap events hphase =>
    refine Or.inl ?_
    simp [ServerState.pipeline, ServerState.swapped, ServerState.queued, ServerState.pending,
      ServerState.todo, hphase]
  | handle env queued pending events hphase =>
    have hqueued : state.pipeline.queued = queued :: (pending ++ state.cmdQ) := by
      simp [ServerState.pipeline, ServerState.queued, ServerState.pending, hphase]
    exact Or.inr (.handle env queued (pending ++ state.cmdQ) hqueued)
  | workDone events hphase =>
    refine Or.inl ?_
    simp [ServerState.pipeline, ServerState.queued, ServerState.pending, ServerState.todo, hphase]
  | skip env stage event rest hphase hinfo =>
    refine Or.inl ?_
    simp [ServerState.pipeline, ServerState.queued, ServerState.pending, ServerState.todo, hphase]
  | dispatch env stage event rest si hphase hinfo =>
    rw [pipeline_dispatched hphase]
    exact Or.inr (.dispatch env event.fd si _ hinfo (dispatches_dispatchStage env stage _ si))
  | dispatchDone stage hphase =>
    refine Or.inl ?_
    simp [ServerState.pipeline, ServerState.queued, ServerState.pending, ServerState.todo, hphase]
  | take env entry rest hworker htasks =>
    have htodo : state.pipeline.todo = [] := by
      simp [ServerState.pipeline, ServerState.todo, hworker]
    exact Or.inr (.take env entry rest htodo htasks)
  | push entry queued todo hworker =>
    have htodo : state.pipeline.todo = queued :: todo := by
      simp [ServerState.pipeline, ServerState.todo, hworker]
    rw [pipeline_pushed]
    exact Or.inr (.push queued todo htodo)
  | finish entry hworker =>
    refine Or.inl ?_
    simp [ServerState.pipeline, ServerState.queued, ServerState.pending, ServerState.todo, hworker]

/-- The invariant rule on pipelines: what holds at the start and is preserved by every step taken
from a reachable state holds in every reachable state. -/
theorem pipeline_induction [LinearOrder Bytes] {condition : ServerState → ServerLabel → Prop}
    {invariant : Pipeline → Prop} (hstart : invariant ServerState.start.pipeline)
    (hstep : ∀ state label next, chatServer.ReachableUnder condition state →
      invariant state.pipeline → condition state label → state.pipeline.Step label next →
      invariant next)
    {state : ServerState} (hreach : chatServer.ReachableUnder condition state) :
    invariant state.pipeline := by
  refine @TransitionSystem.ReachableUnder.induction _ _ chatServer condition
    (fun state ↦ invariant state.pipeline) hstart ?_ state hreach
  intro state label next hreach hinvariant hcondition hstep'
  rcases pipeline_step (transition_of_step hstep') with hsame | hmoves
  · rw [hsame]
    exact hinvariant
  · exact hstep state label next.pipeline hreach hinvariant hcondition hmoves

end ChatServer
