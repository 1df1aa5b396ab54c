import ChatServer.General.DelimitedStream
import ChatServer.General.Supervisor
import ChatServer.Client.ChatIoWorker

/-!
# The run of the client

`chat_client::run` starts the executor thread and the io thread, waits until one of them has called
`signal_stop`, asks both to stop and joins them. The steps of the io thread are those of
`chat_io_worker::run`, one line and one command at a time: `request_execute` pushes a command in a
lock region of the executor's mutex and notifies behind it. The executor looks at its queue under
the same mutex and keeps it until it sleeps.

What the operating system, OpenSSL and the peer answer is given from outside, together with the
error code where a call fails. The record is the bytes received, the commands pushed and executed,
and what `chat_io_worker::run` returned.

Not modelled here: the registration of the two stop callbacks, as a notification wakes up nobody
before the executor sleeps, and `shutdown` of the socket, which the callback of a running io thread
would call; the io thread has returned by then.
-/

set_option autoImplicit false
set_option relaxedAutoImplicit false

namespace ChatServer

/-- The threads that `chat_client::run` starts. -/
inductive ClientThread
  | execute
  | io
  deriving DecidableEq

instance : Fintype ClientThread where
  elems := {.execute, .io}
  complete thread := by cases thread <;> decide

/-- Where `chat_io_worker::run` is: before its first call of `progress_tls_handshake`, at the
condition of its loop, at `poll`, in the loop of `send_stdin`, behind it in the round, in the loop
over the lines received, between a push and its notification, behind the loop, or gone. -/
inductive IoPhase
  | starting
  | looping
  | polling
  | typing (revents : UInt16)
  | serving (revents : UInt16)
  | receiving (closed : Bool)
  | pushed (closed : Bool)
  | closing
  | left
  deriving DecidableEq

/-- Where `chat_executor::run` is: before it looks at the condition, behind a look that said no and
still with the lock, asleep, with a command in hand, or gone. -/
inductive ExecutorPhase
  | looking
  | parking
  | asleep
  | executing
  | left
  deriving DecidableEq

/-- What the two threads share, and the record. -/
structure ClientThreads where
  worker : IoWorker
  io : IoPhase := .starting
  executor : ExecutorPhase := .looking
  ioStop : Bool := false
  executorStop : Bool := false
  received : Bytes := []
  pushed : List Command := []
  executed : List Command := []
  ioResult : Option (Option Nat) := none

/-- A step of one of the two threads; `ec` is the error code where it fails, and `wake` a wake-up
without a notification. -/
inductive ClientInput
  | look
  | park
  | wake
  | execute
  | handshake (outcome : Option SslError) (verified : Bool) (ec : Nat)
  | check
  | poll (answer : Except Nat (UInt16 × UInt16)) (stdin : StdinRead)
  | typedLine (writes : SslTransfer Nat) (ec : Nat)
  | serve (env : PollRound) (ec : Nat)
  | replyLine
  | notify
  | shutdown

/-- The steps of `chat_client::run` before it joins. -/
inductive ClientOrder
  | stopExecutor
  | notifyExecutor
  | stopIo
  deriving DecidableEq

namespace ClientThreads

variable (state : ClientThreads)

/-- The io thread returns. -/
def leaveIo (worker : IoWorker) (result : Option Nat) :
    ClientThreads × Option (Ending Nat) :=
  ({ state with worker := worker, io := .left, ioResult := some result }, some (.signal result))

/-- The io thread goes on, or returns an error. -/
def proceedIo (done : IoWorker × Bool) (io : IoPhase) (ec : Nat) :
    ClientThreads × Option (Ending Nat) :=
  if done.2 then ({ state with worker := done.1, io := io }, none)
  else state.leaveIo done.1 (some ec)

/-- A notification of the executor. -/
def notifyExecutor : ClientThreads :=
  if state.executor = .asleep then { state with executor := .looking } else state

/-! ### The executor -/

/-- A step of `chat_executor::run`; its thread calls `signal_stop` without an error. -/
def executorStep : ClientInput → Option (ClientThreads × Option (Ending Nat))
  | .look =>
    if state.executor = .looking then
      if state.executorStop ∨ state.worker.client.executeQ ≠ [] then
        if state.executorStop ∧ state.worker.client.executeQ = [] then
          some ({ state with executor := .left }, some (.signal none))
        else
          state.worker.client.acquire.map fun client ↦
            ({ state with
                worker := { state.worker with client := client }
                executor := .executing },
              none)
      else some ({ state with executor := .parking }, none)
    else none
  | .park =>
    if state.executor = .parking then some ({ state with executor := .asleep }, none) else none
  | .wake =>
    if state.executor = .asleep then some ({ state with executor := .looking }, none) else none
  | .execute =>
    if state.executor = .executing then
      state.worker.client.executeNext.map fun client ↦
        ({ state with
            worker := { state.worker with client := client }
            executor := .looking
            executed := state.executed ++ state.worker.client.executing.toList },
          none)
    else none
  | _ => none

/-! ### The io thread -/

/-- What follows `poll`: `read` of standard input, when it can be read. -/
def readStdin (stdin : StdinRead) (stdinRevents revents : UInt16) :
    ClientThreads × Option (Ending Nat) :=
  if ¬ state.worker.stdinEof ∧ stdinRevents &&& (pollIn ||| pollHup) ≠ 0 then
    match stdin with
    | .eof =>
      ({ state with worker := { state.worker with stdinEof := true }, io := .serving revents },
        none)
    | .error errno =>
      if errno = eintr then ({ state with io := .serving revents }, none)
      else state.leaveIo state.worker (some errno)
    | .data bytes =>
      ({ state with
          worker := { state.worker with client := state.worker.client.readStdin bytes }
          io := .typing revents },
        none)
  else ({ state with io := .serving revents }, none)

/-- The end of a round. -/
def endRound (worker : IoWorker) : ClientThreads × Option (Ending Nat) :=
  ({ state with
      worker := worker
      io := match worker.doneBranch.2 with
        | .left => .closing
        | _ => .looping },
    none)

/-- The part of a round behind standard input up to the lines received. -/
def serve (env : PollRound) (revents : UInt16) (ec : Nat) : ClientThreads × Option (Ending Nat) :=
  let served :=
    IoWorker.andThen (state.worker.errorBranch revents) fun worker ↦
      IoWorker.andThen (worker.handshakeBranch env revents) fun worker ↦
        worker.sendBranch env revents
  match served.2 with
  | .failed => state.leaveIo served.1 (some ec)
  | _ =>
    if served.1.client.si.tls.handshakeDone ∧ revents &&& (pollIn ||| pollHup) ≠ 0 then
      let drained := served.1.recvSocket env.reads
      let state :=
        { state with
          received := state.received ++
            drained.1.client.si.recv.buf.drop served.1.client.si.recv.buf.length }
      match drained.2 with
      | none => state.leaveIo drained.1 (some ec)
      | some closed => ({ state with worker := drained.1, io := .receiving closed }, none)
    else state.endRound served.1

/-- A round of the loop over the lines received, with the lock region of `request_execute` when the
line is a command. -/
def replyLine (closed : Bool) : Option (ClientThreads × Option (Ending Nat)) :=
  match state.worker.client.receiveRound with
  | none =>
    some (if closed then ({ state with io := .closing }, none) else state.endRound state.worker)
  | some client =>
    let worker := { state.worker with client := client }
    match client.executeQ.drop state.worker.client.executeQ.length with
    | [] => some ({ state with worker := worker }, none)
    | cmds =>
      if state.executor = .parking then none
      else
        some
          ({ state with worker := worker, io := .pushed closed, pushed := state.pushed ++ cmds },
            none)

/-- A step of `chat_io_worker::run`; its thread calls `signal_stop` with its error. -/
def ioStep : ClientInput → Option (ClientThreads × Option (Ending Nat))
  | .handshake outcome verified ec =>
    if state.io = .starting then
      some (state.proceedIo (state.worker.progressTlsHandshake outcome verified) .looping ec)
    else none
  | .check =>
    if state.io = .looping then
      some ({ state with io := if state.ioStop then .closing else .polling }, none)
    else none
  | .poll answer stdin =>
    if state.io = .polling then
      match answer with
      | .error errno =>
        if errno = eintr then some ({ state with io := .looping }, none)
        else some (state.leaveIo state.worker (some errno))
      | .ok (stdinRevents, revents) => some (state.readStdin stdin stdinRevents revents)
    else none
  | .typedLine writes ec =>
    match state.io with
    | .typing revents =>
      match state.worker.client.stdinBuf.parseLine with
      | none => some ({ state with io := .serving revents }, none)
      | some (line, rest) =>
        let taken := state.worker.takeLine rest state.worker.client.loggedIn
        some (state.proceedIo (taken.sendLine writes line) (.typing revents) ec)
    | _ => none
  | .serve env ec =>
    match state.io with
    | .serving revents => some (state.serve env revents ec)
    | _ => none
  | .replyLine =>
    match state.io with
    | .receiving closed => state.replyLine closed
    | _ => none
  | .notify =>
    match state.io with
    | .pushed closed => some ({ state.notifyExecutor with io := .receiving closed }, none)
    | _ => none
  | .shutdown =>
    if state.io = .closing then some (state.leaveIo state.worker.shutdownTls none) else none
  | _ => none

/-! ### `chat_client::run` -/

/-- What an order does. -/
def obey : ClientOrder → Option ClientThreads
  | .stopExecutor => some { state with executorStop := true }
  | .notifyExecutor => some state.notifyExecutor
  | .stopIo => some { state with ioStop := true }

end ClientThreads

/-- The duties behind the wait: `request_stop` of both threads, whose callback notifies the
executor, the two joins, and the result. -/
def clientDuties : List (Duty ClientThread ClientOrder) :=
  [.order .stopExecutor, .order .notifyExecutor, .order .stopIo, .join .execute, .join .io, .answer]

/-- `chat_client::run` on a client that has just connected. -/
def clientRun : Supervision ClientThread ClientThreads Nat ClientInput ClientOrder where
  start := { worker := IoWorker.create { ufd := -1 } false }
  duties := clientDuties
  work
    | .execute, input, state => state.executorStep input
    | .io, input, state => state.ioStep input
  obey order state := state.obey order
  outside _ _ := none

end ChatServer
