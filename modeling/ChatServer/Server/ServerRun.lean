import ChatServer.General.Supervisor
import ChatServer.Reactor.Wakeup

/-!
# The run of the server

`epoll_server::run` starts the acceptor thread and the event loop thread, waits until one of them
has failed or the caller has requested the stop, asks both to stop, wakes them up and joins them.
The event loop is the one of `WakeupState`, with the acceptor, the thread of `run` and the workers
of the database as the threads that wake it up. The acceptor waits on an epoll instance of its own,
with the listening socket and an eventfd in it.

What the operating system answers is given from outside. The stop callback of the caller runs in
another thread; it may call `signal_stop` once, until `run` takes it back.

Not modelled here: the result of `getsockopt` for a failed listening socket, which is the error code
given from outside, and descriptors that neither `create` has added to the acceptor's epoll
instance.
-/

set_option autoImplicit false
set_option relaxedAutoImplicit false

namespace ChatServer

/-- The threads that may call `signal_stop`. -/
inductive ServerThread
  | accept
  | event
  | caller
  deriving DecidableEq

instance : Fintype ServerThread where
  elems := {.accept, .event, .caller}
  complete thread := by cases thread <;> decide

/-- The threads that wake up the event loop. -/
inductive Waker
  | main
  | acceptor
  | worker (index : Nat)
  deriving DecidableEq

/-- An event of the acceptor's epoll instance: its eventfd can be read, the listening socket has an
error, or a connection comes in. -/
inductive AcceptEvent
  | wakeup
  | failed (ec : Nat)
  | incoming
  deriving DecidableEq

/-- Where `epoll_acceptor::run` is: before its stop callback, at the condition of `while`, at
`epoll_wait`, before the next event, in `consume_wakeup`, at `accept4`, before the push or the
eventfd write of `request_register`, or gone. -/
inductive AcceptPhase
  | starting
  | checking
  | waiting
  | scanning (rest : List AcceptEvent)
  | consuming (rest : List AcceptEvent)
  | accepting (rest : List AcceptEvent)
  | registering (fd : Int) (rest : List AcceptEvent)
  | waking (rest : List AcceptEvent)
  | left
  deriving DecidableEq

/-- What the threads share; `acceptWaking` is an eventfd write of the acceptor's stop callback that
is still to come. The record is what the two threads returned with. -/
structure ServerThreads where
  loop : WakeupState Waker := {}
  acceptor : AcceptPhase := .starting
  acceptStop : Bool := false
  acceptCount : Nat := 0
  acceptWaking : Bool := false
  errors : ServerThread → Option Nat := fun _ ↦ none

/-- A step of the event loop or of a thread that wakes it up, one of the acceptor, or the stop
callback of the caller. -/
inductive ServerInput
  | loop (label : WakeupLabel Waker) (ec : Nat)
  | construct
  | check
  | acceptWait (events : List AcceptEvent)
  | interrupted
  | waitFails (ec : Nat)
  | scan
  | read
  | accept (outcome : Except Nat Int)
  | register
  | write
  | call

/-- The steps of `epoll_server::run` before it joins: `request_stop` of each thread, the callback
that it calls, and the two calls of `request_wakeup` behind them. -/
inductive ServerOrder
  | stopEvent
  | callEvent
  | stopAccept
  | callAccept
  | wakeRegistry
  | wakeListener
  deriving DecidableEq

/-- `EINTR` of `accept4`. -/
def acceptInterrupted : Nat := 4

/-- The steps of the event loop itself. -/
def WakeupLabel.OfLoop {Thread : Type} : WakeupLabel Thread → Bool
  | .push _ _ | .requestStop _ | .write _ | .wakeup => false
  | _ => true

namespace ServerThreads

variable (state : ServerThreads)

/-- A thread returns with this result. -/
def leave (thread : ServerThread) (error : Option Nat) :
    ServerThreads × Option (Ending Nat) :=
  ({ state with errors := Function.update state.errors thread error },
    some (match error with
      | none => .silent
      | some ec => .signal (some ec)))

/-- A step of `event_loop::run`. -/
def eventStep (label : WakeupLabel Waker) (ec : Nat) :
    Option (ServerThreads × Option (Ending Nat)) :=
  if label.OfLoop then
    (state.loop.step label).map fun loop ↦
      let next := { state with loop := loop }
      if loop.phase = .left then
        next.leave .event (match label with
          | .waitFails => some ec
          | _ => none)
      else (next, none)
  else none

/-- A step of `epoll_acceptor::run`. -/
def acceptStep : ServerInput → Option (ServerThreads × Option (Ending Nat))
  | .construct =>
    if state.acceptor = .starting then
      some
        ({ state with
            acceptor := .checking
            acceptCount :=
              if state.acceptStop then requestWakeup state.acceptCount else state.acceptCount },
          none)
    else none
  | .check =>
    if state.acceptor = .checking then
      some
        (if state.acceptStop then
          ({ state with acceptor := .left } : ServerThreads).leave .accept none
        else ({ state with acceptor := .waiting }, none))
    else none
  | .acceptWait events =>
    if state.acceptor = .waiting ∧ events ≠ [] ∧ (.wakeup ∈ events → 0 < state.acceptCount) then
      some ({ state with acceptor := .scanning events }, none)
    else none
  | .interrupted =>
    if state.acceptor = .waiting then some ({ state with acceptor := .checking }, none) else none
  | .waitFails ec =>
    if state.acceptor = .waiting then
      some (({ state with acceptor := .left } : ServerThreads).leave .accept (some ec))
    else none
  | .scan =>
    match state.acceptor with
    | .scanning [] => some ({ state with acceptor := .checking }, none)
    | .scanning (.wakeup :: rest) => some ({ state with acceptor := .consuming rest }, none)
    | .scanning (.failed ec :: _) =>
      some (({ state with acceptor := .left } : ServerThreads).leave .accept (some ec))
    | .scanning (.incoming :: rest) => some ({ state with acceptor := .accepting rest }, none)
    | _ => none
  | .read =>
    match state.acceptor with
    | .consuming rest =>
      if 0 < state.acceptCount then some ({ state with acceptCount := 0 }, none)
      else some ({ state with acceptor := .scanning rest }, none)
    | _ => none
  | .accept outcome =>
    match state.acceptor with
    | .accepting rest =>
      match outcome with
      | .ok fd => some ({ state with acceptor := .registering fd rest }, none)
      | .error errno =>
        if errno = acceptInterrupted then some (state, none)
        else some ({ state with acceptor := .scanning rest }, none)
    | _ => none
  | .register =>
    match state.acceptor with
    | .registering fd rest =>
      (state.loop.step (.push .acceptor (.register fd (epollIn ||| epollRdhup)))).map fun loop ↦
        ({ state with loop := loop, acceptor := .waking rest }, none)
    | _ => none
  | .write =>
    match state.acceptor with
    | .waking rest =>
      (state.loop.step (.write .acceptor)).map fun loop ↦
        ({ state with loop := loop, acceptor := .accepting rest }, none)
    | _ => none
  | _ => none

/-- What an order does. A callback does nothing when its thread has not come to it or has left. -/
def obey : ServerOrder → Option ServerThreads
  | .stopEvent => (state.loop.step (.requestStop .main)).map fun loop ↦ { state with loop := loop }
  | .callEvent =>
    if .main ∈ state.loop.waking then
      (state.loop.step (.write .main)).map fun loop ↦ { state with loop := loop }
    else some state
  | .stopAccept =>
    some
      { state with
        acceptStop := true
        acceptWaking := state.acceptor ≠ .starting ∧ state.acceptor ≠ .left }
  | .callAccept =>
    if state.acceptWaking then
      some { state with acceptCount := requestWakeup state.acceptCount, acceptWaking := false }
    else some state
  | .wakeRegistry => (state.loop.step .wakeup).map fun loop ↦ { state with loop := loop }
  | .wakeListener => some { state with acceptCount := requestWakeup state.acceptCount }

/-- A step of a worker of the database: a push, or the eventfd write behind it. -/
def workerStep : ServerInput → Option ServerThreads
  | .loop (.push (.worker index) command) _ =>
    (state.loop.step (.push (.worker index) command)).map fun loop ↦ { state with loop := loop }
  | .loop (.write (.worker index)) _ =>
    (state.loop.step (.write (.worker index))).map fun loop ↦ { state with loop := loop }
  | _ => none

end ServerThreads

/-- The duties behind the wait; `on_external_stop` is destroyed when the result is evaluated. -/
def serverDuties : List (Duty ServerThread ServerOrder) :=
  [.order .stopEvent, .order .callEvent, .order .stopAccept, .order .callAccept,
    .order .wakeRegistry, .order .wakeListener, .join .event, .join .accept, .answer,
    .retire .caller]

/-- `epoll_server::run`. -/
def serverRun : Supervision ServerThread ServerThreads Nat ServerInput ServerOrder where
  start := {}
  duties := serverDuties
  work
    | .event, .loop label ec, state => state.eventStep label ec
    | .accept, input, state => state.acceptStep input
    | .caller, .call, state => some (state, some (.signal none))
    | _, _, _ => none
  obey order state := state.obey order
  outside input state := state.workerStep input

end ChatServer
