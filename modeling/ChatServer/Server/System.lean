import ChatServer.General.TransitionSystem
import ChatServer.Database.ExecutorEffects
import ChatServer.Server.EpollServer

/-!
# The running server

Three threads share a queue each way: the acceptor queues registrations to the registry, the event
loop takes registry commands out and queues tasks to the database worker, and the worker queues
registry commands back. `ServerState` is their common state, and a `ServerLabel` is one action of
one thread, cut where a thread locks a queue or enters the kernel: between two labels any other
thread may act.

The kernel gives `accept` any descriptor that is not open. A number may therefore be used again
after `close`, so every accepted connection also has a serial number, and `Kernel.sockets` says
which connection an open descriptor belongs to. `epoll_wait` reports descriptors of the interest
set, and `close` takes a descriptor out of it.

Besides the program's own state some fields record what happened, for the statements only: queued
commands and tasks carry the connection they are about, queued broadcasts the message they report,
and `Ledger` keeps the bytes received, the lines decoded, the tasks executed, the messages committed
and the broadcasts delivered. Nothing of the program reads them.

Not modelled here: the start and the stop of the server, the listener's own epoll instance, and the
wake-up descriptor, for which the event loop finds no connection.
-/

set_option autoImplicit false
set_option relaxedAutoImplicit false

namespace ChatServer

/-! ### The kernel -/

/-- The open sockets with the connection each belongs to, the interest set of the event loop, and
the serial number of the next connection. -/
structure Kernel where
  sockets : Finmap fun _ : Int ↦ Nat
  interest : Finset Int
  nextConn : Nat

/-- What an effect of a handler does to the kernel. -/
def Kernel.apply (kernel : Kernel) : Effect → Kernel
  | .watched fd => { kernel with interest := insert fd kernel.interest }
  | .closed fd =>
    { kernel with sockets := kernel.sockets.erase fd, interest := kernel.interest.erase fd }
  | .appended .. => kernel
  | .dangling _ => kernel

/-- The connection an open descriptor belongs to. -/
def Kernel.conn (kernel : Kernel) (fd : Int) : Option Nat :=
  kernel.sockets.lookup fd

/-! ### Queues -/

/-- A committed message, with the members of its room at the commit. -/
structure Message where
  row : MessageRow Bytes
  members : List Bytes
  deriving DecidableEq

/-- A queued registry command, with the connection it is about and the message it reports. -/
structure Queued where
  command : RegistryCommand
  conn : Nat
  message : Option Message := none
  deriving DecidableEq

/-- A queued task, with the connection its line was received on and the identities that logins of
this connection had been given by then. -/
structure TaskEntry where
  task : Task
  conn : Nat
  applied : List Bytes
  deriving DecidableEq

/-- An event of `epoll_wait`, with the connection that raised it. -/
structure Event where
  fd : Int
  mask : UInt32
  conn : Option Nat
  deriving DecidableEq

/-! ### The event loop -/

/-- `is_read_event`. -/
def isReadEvent (event : UInt32) : Bool :=
  event &&& (epollIn ||| epollRdhup ||| epollHup) != 0

/-- `is_write_event`. -/
def isWriteEvent (event : UInt32) : Bool :=
  event &&& epollOut != 0

/-- `is_error_event`. -/
def isErrorEvent (event : UInt32) : Bool :=
  event &&& epollErr != 0

/-- Which callback the event at hand has come to. -/
inductive Stage
  | recv
  | send
  | execute
  deriving DecidableEq

/-- Where the event loop is: before `epoll_wait`, before the swap in `work`, handling the swapped
commands, or dispatching events. -/
inductive Phase
  | waiting
  | polled (events : List Event)
  | working (pending : List Queued) (events : List Event)
  | dispatching (stage : Stage) (events : List Event)

/-- What one callback of the event at hand did; `next` is the next stage, or `none` when the event
is over. -/
structure Dispatched where
  info : SocketInfo
  requests : List RegistryCommand := []
  task : Option Task := none
  line : Option Bytes := none
  next : Option Stage

/-- One callback of `event_loop::run` on a connection it found. -/
def dispatchStage (env : IoEnv) (stage : Stage) (event : UInt32) (si : SocketInfo) : Dispatched :=
  match stage with
  | .recv =>
    if isErrorEvent event then
      let called := EpollServer.handleClientError si
      { info := called.1, requests := called.2, next := none }
    else if isReadEvent event then
      let received := EpollServer.handleRecv env event si
      { info := received.1.1, requests := received.1.2
        next := if received.2 then some .send else none }
    else { info := si, next := some .send }
  | .send =>
    if isWriteEvent event then
      let called := EpollServer.handleSend env si
      { info := called.1, requests := called.2, next := some .execute }
    else { info := si, next := some .execute }
  | .execute =>
    if isReadEvent event then
      let executed := EpollServer.handleExecute si
      { info := executed.info, requests := executed.requests, task := executed.task
        line := executed.line, next := if executed.again then some .execute else none }
    else { info := si, next := none }

/-! ### The record -/

/-- An executed task; `identity` is what a login line established: its id if the database accepted
it, and no user otherwise. -/
structure Execution where
  entry : TaskEntry
  identity : Option Bytes
  deriving DecidableEq

/-- A broadcast appended to the send buffer of a connection, with the user logged in there. -/
structure Delivery where
  conn : Option Nat
  userId : Bytes
  message : Message
  deriving DecidableEq

/-- What happened so far, oldest first. -/
structure Ledger where
  received : List (Nat × Bytes) := []
  lines : List (Nat × Bytes) := []
  enqueued : List TaskEntry := []
  executed : List Execution := []
  applied : List (Nat × Bytes) := []
  committed : List Message := []
  deliveries : List Delivery := []

/-- The values recorded for one connection. -/
def valuesOf {Value : Type} (conn : Nat) (records : List (Nat × Value)) : List Value :=
  (records.filter fun record ↦ decide (record.1 = conn)).map Prod.snd

theorem valuesOf_append {Value : Type} (conn : Nat) (first second : List (Nat × Value)) :
    valuesOf conn (first ++ second) = valuesOf conn first ++ valuesOf conn second := by
  rw [valuesOf, List.filter_append, List.map_append, ← valuesOf, ← valuesOf]

theorem valuesOf_singleton {Value : Type} (conn : Nat) (record : Nat × Value) :
    valuesOf conn [record] = if record.1 = conn then [record.2] else [] := by
  unfold valuesOf
  split_ifs with hsame <;> simp [hsame]

namespace Ledger

/-- The bytes drained from a connection. -/
def receivedOf (ledger : Ledger) (conn : Nat) : Bytes :=
  (valuesOf conn ledger.received).flatten

/-- The lines of a connection handed to `decode`. -/
def linesOf (ledger : Ledger) (conn : Nat) : List Bytes :=
  valuesOf conn ledger.lines

/-- The identities the event loop has given to a connection. -/
def appliedOf (ledger : Ledger) (conn : Nat) : List Bytes :=
  valuesOf conn ledger.applied

/-- The broadcasts delivered to a connection. -/
def deliveriesOf (ledger : Ledger) (conn : Nat) : List Delivery :=
  ledger.deliveries.filter fun delivery ↦ decide (delivery.conn = some conn)

end Ledger

/-! ### What a record says -/

/-- The connection of an event at hand; its descriptor is open (`Owned.registered`). -/
def Kernel.connOf (kernel : Kernel) (fd : Int) : Nat :=
  (kernel.conn fd).getD kernel.nextConn

/-- The broadcasts that the handling of a command delivers. -/
def delivered (kernel : Kernel) (queued : Queued) (effects : List Effect) : List Delivery :=
  match queued.message with
  | none => []
  | some message =>
    (recipients effects).map fun recipient ↦
      { conn := kernel.conn recipient.1, userId := recipient.2, message := message }

/-- The identity that the handling of a command gives to a connection. -/
def identified (kernel : Kernel) (registry : EpollRegistry) (command : RegistryCommand) :
    List (Nat × Bytes) :=
  match command with
  | .setUserId fd userId =>
    if fd ∈ registry.infos then ((kernel.conn fd).map fun conn ↦ (conn, userId)).toList else []
  | _ => []

/-- The message a committed `create_room_message` left, with the members of its room. -/
def lastMessage (db : Database Bytes) : Option Message :=
  db.messages.getLast?.map fun row ↦
    { row := row
      members := (db.roomMembers.filter fun member ↦ decide (member.roomId = row.roomId)).map
        RoomMemberRow.userId }

/-- A command the worker queues, with the message a broadcast reports. -/
def queuedOf (entry : TaskEntry) (db : Database Bytes) (command : RegistryCommand) : Queued where
  command := command
  conn := entry.conn
  message :=
    match command with
    | .roomBroadcast .. => lastMessage db
    | _ => none

/-! ### States -/

/-- The common state of the three threads; `acceptor` is the descriptor accepted but not yet queued
for registration, and `worker` the task in execution with the commands it has still to queue. -/
structure ServerState where
  kernel : Kernel
  acceptor : Option (Int × Nat)
  registry : EpollRegistry
  cmdQ : List Queued
  phase : Phase
  tasks : List TaskEntry
  worker : Option (TaskEntry × List Queued)
  db : Database Bytes
  ledger : Ledger

/-- The server as it is constructed, on an empty database. -/
def ServerState.start : ServerState where
  kernel := { sockets := ∅, interest := ∅, nextConn := 0 }
  acceptor := none
  registry := EpollRegistry.empty
  cmdQ := []
  phase := .waiting
  tasks := []
  worker := none
  db := Database.empty Bytes
  ledger := {}

/-- One action of one thread, with what it takes from outside. -/
inductive ServerLabel
  | accept (fd : Int)
  | requestRegister
  | epollWait (events : List (Int × UInt32))
  | swap
  | handle (env : HandlerEnv)
  | workDone
  | dispatch (env : IoEnv)
  | dispatchDone
  | take (env : DbEnv)
  | push
  | finish

namespace ServerState

/-! ### Actions -/

/-- The state after a connection is accepted at a descriptor. -/
def accepted (state : ServerState) (fd : Int) : ServerState :=
  { state with
    kernel := { state.kernel with
      sockets := state.kernel.sockets.insert fd state.kernel.nextConn
      nextConn := state.kernel.nextConn + 1 }
    acceptor := some (fd, state.kernel.nextConn) }

/-- `accept4` returns a descriptor that is not open. -/
def accept (state : ServerState) (fd : Int) : Option ServerState :=
  if 0 ≤ fd ∧ fd ∉ state.kernel.sockets ∧ state.acceptor = none then some (state.accepted fd)
  else none

/-- The state after the accepted connection is queued for registration. -/
def registering (state : ServerState) (fd : Int) (conn : Nat) : ServerState :=
  { state with
    acceptor := none
    cmdQ := state.cmdQ ++ [{ command := .register fd (epollIn ||| epollRdhup), conn := conn }] }

/-- `request_register`. -/
def requestRegister (state : ServerState) : Option ServerState :=
  match state.acceptor with
  | none => none
  | some (fd, conn) => some (state.registering fd conn)

/-- The state after `epoll_wait` returned these events. -/
def awake (state : ServerState) (events : List (Int × UInt32)) : ServerState :=
  { state with
    phase := .polled (events.map fun event ↦
      { fd := event.1, mask := event.2, conn := state.kernel.conn event.1 }) }

/-- `epoll_wait` reports descriptors of the interest set, each once. -/
def epollWait (state : ServerState) (events : List (Int × UInt32)) : Option ServerState :=
  match state.phase with
  | .waiting =>
    if (∀ event ∈ events, event.1 ∈ state.kernel.interest) ∧ (events.map Prod.fst).Nodup then
      some (state.awake events)
    else none
  | _ => none

/-- The state after the queue is swapped out. -/
def swapped (state : ServerState) (events : List Event) : ServerState :=
  { state with phase := .working state.cmdQ events, cmdQ := [] }

/-- The swap in `work`. -/
def swap (state : ServerState) : Option ServerState :=
  match state.phase with
  | .polled events => some (state.swapped events)
  | _ => none

/-- The state after the first of the swapped commands is handled. -/
def handled (state : ServerState) (env : HandlerEnv) (queued : Queued) (pending : List Queued)
    (events : List Event) : ServerState :=
  let result := state.registry.handleCommand env queued.command
  { state with
    kernel := result.2.foldl Kernel.apply state.kernel
    registry := result.1
    phase := .working pending events
    ledger := { state.ledger with
      applied := state.ledger.applied ++
          identified state.kernel state.registry queued.command
      deliveries := state.ledger.deliveries ++ delivered state.kernel queued result.2 } }

/-- A round of the loop in `work`. -/
def handle (state : ServerState) (env : HandlerEnv) : Option ServerState :=
  match state.phase with
  | .working (queued :: pending) events => some (state.handled env queued pending events)
  | _ => none

/-- The end of `work`. -/
def workDone (state : ServerState) : Option ServerState :=
  match state.phase with
  | .working [] events => some { state with phase := .dispatching .recv events }
  | _ => none

/-- The state after one callback on the connection of the event at hand. -/
def dispatched (state : ServerState) (event : Event) (rest : List Event) (si : SocketInfo)
    (result : Dispatched) : ServerState :=
  let conn := state.kernel.connOf event.fd
  let entries := (result.task.map fun task ↦
    { task := task, conn := conn, applied := state.ledger.appliedOf conn : TaskEntry }).toList
  { state with
    registry := state.registry.setInfo event.fd result.info
    cmdQ := state.cmdQ ++ result.requests.map fun command ↦ { command := command, conn := conn }
    phase :=
      match result.next with
      | none => .dispatching .recv rest
      | some stage => .dispatching stage (event :: rest)
    tasks := state.tasks ++ entries
    ledger := { state.ledger with
      received := state.ledger.received ++
        [(conn, result.info.recv.currentData.drop si.recv.currentData.length)]
      lines := state.ledger.lines ++ (result.line.map fun line ↦ (conn, line)).toList
      enqueued := state.ledger.enqueued ++ entries } }

/-- One callback of the event at hand, or the next event when no connection is found. -/
def dispatch (state : ServerState) (env : IoEnv) : Option ServerState :=
  match state.phase with
  | .dispatching stage (event :: rest) =>
    match state.registry.infos.lookup event.fd with
    | none => some { state with phase := .dispatching .recv rest }
    | some si => some (state.dispatched event rest si (dispatchStage env stage event.mask si))
  | _ => none

/-- The end of the loop over the events. -/
def dispatchDone (state : ServerState) : Option ServerState :=
  match state.phase with
  | .dispatching _ [] => some { state with phase := .waiting }
  | _ => none

section Worker

variable [LinearOrder Bytes]

/-- The state after a task is taken and its database calls are made. -/
def taken (state : ServerState) (env : DbEnv) (entry : TaskEntry) (rest : List TaskEntry) :
    ServerState :=
  let result := DbExecutor.execute env entry.task state.db
  let committed := result.1.messages.drop state.db.messages.length
  { state with
    tasks := rest
    worker := some (entry, result.2.map (queuedOf entry result.1))
    db := result.1
    ledger := { state.ledger with
      executed := state.ledger.executed ++ [⟨entry, establishes env entry.task state.db⟩]
      committed := state.ledger.committed ++
        (if committed = [] then none else lastMessage result.1).toList } }

/-- The worker takes a task. -/
def take (state : ServerState) (env : DbEnv) : Option ServerState :=
  match state.worker, state.tasks with
  | none, entry :: rest => some (state.taken env entry rest)
  | _, _ => none

/-- The state after the worker queued a command. -/
def pushed (state : ServerState) (entry : TaskEntry) (queued : Queued) (todo : List Queued) :
    ServerState :=
  { state with worker := some (entry, todo), cmdQ := state.cmdQ ++ [queued] }

/-- The worker queues the next command. -/
def push (state : ServerState) : Option ServerState :=
  match state.worker with
  | some (entry, queued :: todo) => some (state.pushed entry queued todo)
  | _ => none

/-- The task is done. -/
def finish (state : ServerState) : Option ServerState :=
  match state.worker with
  | some (_, []) => some { state with worker := none }
  | _ => none

/-- One action of one thread. -/
def step (state : ServerState) : ServerLabel → Option ServerState
  | .accept fd => state.accept fd
  | .requestRegister => state.requestRegister
  | .epollWait events => state.epollWait events
  | .swap => state.swap
  | .handle env => state.handle env
  | .workDone => state.workDone
  | .dispatch env => state.dispatch env
  | .dispatchDone => state.dispatchDone
  | .take env => state.take env
  | .push => state.push
  | .finish => state.finish

end Worker

/-! ### The commands under way -/

/-- The commands swapped out of the queue and not yet handled. -/
def pending (state : ServerState) : List Queued :=
  match state.phase with
  | .working pending _ => pending
  | _ => []

theorem phase_of_pending {state : ServerState} {first : Queued}
    (hpending : state.pending.head? = some first) :
    ∃ rest events, state.phase = .working (first :: rest) events := by
  cases hphase : state.phase with
  | working pending events =>
    rw [ServerState.pending, hphase] at hpending
    obtain ⟨rest, rfl⟩ := List.head?_eq_some_iff.mp hpending
    exact ⟨rest, events, rfl⟩
  | _ =>
    rw [ServerState.pending, hphase] at hpending
    cases hpending

/-- The commands that have been queued and not yet handled, in the order of their handling. -/
def queued (state : ServerState) : List Queued :=
  state.pending ++ state.cmdQ

/-- The commands the worker has still to queue. -/
def todo (state : ServerState) : List Queued :=
  match state.worker with
  | none => []
  | some (_, todo) => todo

end ServerState

/-- The server as a transition system. -/
def chatServer [LinearOrder Bytes] : TransitionSystem ServerState ServerLabel where
  start := ServerState.start
  step := ServerState.step

/-! ### What an action is -/

/-- The actions, each with the state in which it is possible and the state it leads to. -/
inductive Transition [LinearOrder Bytes] (state : ServerState) : ServerLabel → ServerState → Prop
  | accept (fd : Int) (hfd : 0 ≤ fd) (hclosed : fd ∉ state.kernel.sockets)
      (hidle : state.acceptor = none) : Transition state (.accept fd) (state.accepted fd)
  | requestRegister (fd : Int) (conn : Nat) (hacceptor : state.acceptor = some (fd, conn)) :
      Transition state .requestRegister (state.registering fd conn)
  | epollWait (events : List (Int × UInt32)) (hphase : state.phase = .waiting)
      (hinterest : ∀ event ∈ events, event.1 ∈ state.kernel.interest)
      (hnodup : (events.map Prod.fst).Nodup) :
      Transition state (.epollWait events) (state.awake events)
  | swap (events : List Event) (hphase : state.phase = .polled events) :
      Transition state .swap (state.swapped events)
  | handle (env : HandlerEnv) (queued : Queued) (pending : List Queued) (events : List Event)
      (hphase : state.phase = .working (queued :: pending) events) :
      Transition state (.handle env) (state.handled env queued pending events)
  | workDone (events : List Event) (hphase : state.phase = .working [] events) :
      Transition state .workDone { state with phase := .dispatching .recv events }
  | skip (env : IoEnv) (stage : Stage) (event : Event) (rest : List Event)
      (hphase : state.phase = .dispatching stage (event :: rest))
      (hinfo : state.registry.infos.lookup event.fd = none) :
      Transition state (.dispatch env) { state with phase := .dispatching .recv rest }
  | dispatch (env : IoEnv) (stage : Stage) (event : Event) (rest : List Event) (si : SocketInfo)
      (hphase : state.phase = .dispatching stage (event :: rest))
      (hinfo : state.registry.infos.lookup event.fd = some si) :
      Transition state (.dispatch env)
        (state.dispatched event rest si (dispatchStage env stage event.mask si))
  | dispatchDone (stage : Stage) (hphase : state.phase = .dispatching stage []) :
      Transition state .dispatchDone { state with phase := .waiting }
  | take (env : DbEnv) (entry : TaskEntry) (rest : List TaskEntry)
      (hworker : state.worker = none) (htasks : state.tasks = entry :: rest) :
      Transition state (.take env) (state.taken env entry rest)
  | push (entry : TaskEntry) (queued : Queued) (todo : List Queued)
      (hworker : state.worker = some (entry, queued :: todo)) :
      Transition state .push (state.pushed entry queued todo)
  | finish (entry : TaskEntry) (hworker : state.worker = some (entry, [])) :
      Transition state .finish { state with worker := none }

/-- Every step of the system is one of the actions. -/
theorem transition_of_step [LinearOrder Bytes] {state next : ServerState} {label : ServerLabel}
    (hstep : chatServer.step state label = some next) : Transition state label next := by
  have hstep' : state.step label = some next := hstep
  cases label with
  | accept fd =>
    simp only [ServerState.step, ServerState.accept] at hstep'
    split_ifs at hstep' with hguard
    obtain rfl := Option.some.inj hstep'
    exact .accept fd hguard.1 hguard.2.1 hguard.2.2
  | requestRegister =>
    simp only [ServerState.step, ServerState.requestRegister] at hstep'
    split at hstep'
    · cases hstep'
    · next hacceptor =>
      obtain rfl := Option.some.inj hstep'
      exact .requestRegister _ _ hacceptor
  | epollWait events =>
    simp only [ServerState.step, ServerState.epollWait] at hstep'
    split at hstep'
    · next hphase =>
      split_ifs at hstep' with hguard
      obtain rfl := Option.some.inj hstep'
      exact .epollWait events hphase hguard.1 hguard.2
    · cases hstep'
  | swap =>
    simp only [ServerState.step, ServerState.swap] at hstep'
    split at hstep'
    · next hphase =>
      obtain rfl := Option.some.inj hstep'
      exact .swap _ hphase
    · cases hstep'
  | handle env =>
    simp only [ServerState.step, ServerState.handle] at hstep'
    split at hstep'
    · next hphase =>
      obtain rfl := Option.some.inj hstep'
      exact .handle env _ _ _ hphase
    · cases hstep'
  | workDone =>
    simp only [ServerState.step, ServerState.workDone] at hstep'
    split at hstep'
    · next hphase =>
      obtain rfl := Option.some.inj hstep'
      exact .workDone _ hphase
    · cases hstep'
  | dispatch env =>
    simp only [ServerState.step, ServerState.dispatch] at hstep'
    split at hstep'
    · next stage event rest hphase =>
      cases hinfo : state.registry.infos.lookup event.fd with
      | none =>
        rw [hinfo] at hstep'
        obtain rfl := Option.some.inj hstep'
        exact .skip env stage event rest hphase hinfo
      | some si =>
        rw [hinfo] at hstep'
        obtain rfl := Option.some.inj hstep'
        exact .dispatch env stage event rest si hphase hinfo
    · cases hstep'
  | dispatchDone =>
    simp only [ServerState.step, ServerState.dispatchDone] at hstep'
    split at hstep'
    · next hphase =>
      obtain rfl := Option.some.inj hstep'
      exact .dispatchDone _ hphase
    · cases hstep'
  | take env =>
    simp only [ServerState.step, ServerState.take] at hstep'
    split at hstep'
    · next hworker htasks =>
      obtain rfl := Option.some.inj hstep'
      exact .take env _ _ hworker htasks
    · cases hstep'
  | push =>
    simp only [ServerState.step, ServerState.push] at hstep'
    split at hstep'
    · next hworker =>
      obtain rfl := Option.some.inj hstep'
      exact .push _ _ _ hworker
    · cases hstep'
  | finish =>
    simp only [ServerState.step, ServerState.finish] at hstep'
    split at hstep'
    · next hworker =>
      obtain rfl := Option.some.inj hstep'
      exact .finish _ hworker
    · cases hstep'

/-! ### Runs to evaluate -/

/-- A callback in which these bytes arrive and nothing fails. -/
def IoEnv.receiving (data : Bytes) : IoEnv where
  handshake := none
  handshakeSyncOk := true
  reads := ⟨[data], .wantRead⟩
  writes := ⟨[], .wantWrite⟩
  syncOk := true

/-- A handler in which nothing fails. -/
def HandlerEnv.steady : HandlerEnv where
  order := .ascending
  modOk := fun _ ↦ true
  registerFault := none

/-- A task whose database calls succeed. -/
def DbEnv.steady : DbEnv where
  fails := fun _ ↦ none
  now := 0
  gap := 0
  timestampText := fun _ ↦ []

/-- A client connects at a descriptor. -/
def connecting (fd : Int) : List ServerLabel :=
  [.accept fd, .requestRegister]

/-- `epoll_wait` returns, and so many queued commands are handled. -/
def working (events : List (Int × UInt32)) (count : Nat) : List ServerLabel :=
  .epollWait events :: .swap :: List.replicate count (.handle .steady)

/-- A whole round of the event loop, with what its callbacks receive. -/
def round (events : List (Int × UInt32)) (count : Nat) (received : List Bytes) :
    List ServerLabel :=
  working events count ++ .workDone :: received.map (fun data ↦ .dispatch (.receiving data)) ++
    [.dispatchDone]

/-- A whole round in which a client sends these commands. -/
def sending (fd : Int) (commands : List Command) : List ServerLabel :=
  round [(fd, epollIn)] 0 (commands.flatMap encode :: List.replicate (commands.length + 2) [])

/-- The worker executes a task that queues so many commands. -/
def executing (count : Nat) : List ServerLabel :=
  .take .steady :: List.replicate count .push ++ [.finish]

end ChatServer
