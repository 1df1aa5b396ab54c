import ChatServer.General.TransitionSystem
import ChatServer.Reactor.EpollRegistry

/-!
# Waking up the event loop

Any thread may push a command to `cmd_q` under its lock and then write the eventfd, or request the
stop, in which case `on_stop` writes the eventfd in that thread. The event loop reads the eventfd
until it is empty, swaps the queue out, handles what it got, looks at the stop flag and dispatches
events, whose callbacks may push commands themselves. Each label is one atomic step of one thread:
a lock region, a system call, a look at the stop flag, or the handling of one command.

The eventfd is a counter below `eventfdMax`. A nonblocking write of 1 at this bound does nothing
(`EAGAIN`), a read takes the whole count, and `epoll_wait` may return the descriptor as long as the
count is positive. Other descriptors may be ready at any time, and a signal may interrupt the wait.

The record is the commands pushed and the commands handled, oldest first.

Not modelled here: errors of `read` and `write` other than `EAGAIN`, which an open eventfd does not
give.
-/

set_option autoImplicit false
set_option relaxedAutoImplicit false

namespace ChatServer

/-- The largest count an eventfd holds. -/
def eventfdMax : Nat :=
  2 ^ 64 - 2

/-- `epoll_wakeup::request_wakeup`, as what it does to the count. -/
def requestWakeup (count : Nat) : Nat :=
  if count < eventfdMax then count + 1 else count

theorem requestWakeup_pos (count : Nat) : 0 < requestWakeup count := by
  unfold requestWakeup
  split_ifs with hroom
  · omega
  · unfold eventfdMax at hroom
    omega

/-- Where the event loop is: before `on_stop`, at the condition of `while`, at `epoll_wait`, in
`consume_wakeup`, before the swap, handling commands, at the second look at the stop flag, or
dispatching events, perhaps with a command pushed whose eventfd write is still to come. -/
inductive LoopPhase
  | starting
  | checking
  | waiting
  | consuming
  | swapping
  | handling (pending : List RegistryCommand)
  | rechecking
  | dispatching (pushed : Bool)
  | left
  deriving DecidableEq

/-- The commands swapped out and not handled yet. -/
def LoopPhase.pending : LoopPhase → List RegistryCommand
  | .handling pending => pending
  | _ => []

/-- The phases from which the loop comes to the swap, or to an eventfd write, before it waits. -/
def LoopPhase.Heeds : LoopPhase → Prop
  | .consuming | .swapping | .dispatching true => True
  | _ => False

/-- What the threads share, the threads that have pushed a command or requested the stop and have
not written the eventfd yet, and the record. -/
structure WakeupState (Thread : Type) where
  phase : LoopPhase := .starting
  count : Nat := 0
  cmdQ : List RegistryCommand := []
  stopRequested : Bool := false
  waking : Finset Thread := ∅
  pushed : List RegistryCommand := []
  handled : List RegistryCommand := []

/-- One step of a thread, or of the event loop from `construct` on. `wakeup` is a call of
`request_wakeup` without a command, as `epoll_server::run` makes it. -/
inductive WakeupLabel (Thread : Type)
  | push (thread : Thread) (command : RegistryCommand)
  | requestStop (thread : Thread)
  | write (thread : Thread)
  | wakeup
  | construct
  | check
  | epollWait (othersReady : Bool)
  | interrupted
  | waitFails
  | read
  | swap
  | handle
  | recheck
  | callback (command : RegistryCommand)
  | callbackWrite
  | dispatched

namespace WakeupState

variable {Thread : Type} [DecidableEq Thread]

/-- The lock region of `request_register`, `request_unregister`, `request_send` and the like. -/
def push (state : WakeupState Thread) (command : RegistryCommand) : WakeupState Thread :=
  { state with
    cmdQ := state.cmdQ ++ [command]
    pushed := state.pushed ++ [command] }

/-- One atomic step. -/
def step (state : WakeupState Thread) : WakeupLabel Thread → Option (WakeupState Thread)
  | .push thread command =>
    if thread ∈ state.waking then none
    else some { state.push command with waking := insert thread state.waking }
  | .requestStop thread =>
    if thread ∈ state.waking then none
    else if state.stopRequested then some state
    else if state.phase = .starting ∨ state.phase = .left then
      some { state with stopRequested := true }
    else some { state with stopRequested := true, waking := insert thread state.waking }
  | .write thread =>
    if thread ∈ state.waking then
      some
        { state with
          count := requestWakeup state.count
          waking := state.waking.erase thread }
    else none
  | .wakeup => some { state with count := requestWakeup state.count }
  | .construct =>
    if state.phase = .starting then
      some
        { state with
          phase := .checking
          count := if state.stopRequested then requestWakeup state.count else state.count }
    else none
  | .check =>
    if state.phase = .checking then
      some { state with phase := if state.stopRequested then .left else .waiting }
    else none
  | .epollWait othersReady =>
    if state.phase = .waiting ∧ (0 < state.count ∨ othersReady) then
      some { state with phase := .consuming }
    else none
  | .interrupted =>
    if state.phase = .waiting then some { state with phase := .checking } else none
  | .waitFails => if state.phase = .waiting then some { state with phase := .left } else none
  | .read =>
    if state.phase = .consuming then
      if 0 < state.count then some { state with count := 0 }
      else some { state with phase := .swapping }
    else none
  | .swap =>
    if state.phase = .swapping then
      some { state with phase := .handling state.cmdQ, cmdQ := [] }
    else none
  | .handle =>
    match state.phase with
    | .handling [] => some { state with phase := .rechecking }
    | .handling (command :: rest) =>
      some { state with phase := .handling rest, handled := state.handled ++ [command] }
    | _ => none
  | .recheck =>
    if state.phase = .rechecking then
      some { state with phase := if state.stopRequested then .left else .dispatching false }
    else none
  | .callback command =>
    if state.phase = .dispatching false then
      some { state.push command with phase := .dispatching true }
    else none
  | .callbackWrite =>
    if state.phase = .dispatching true then
      some { state with phase := .dispatching false, count := requestWakeup state.count }
    else none
  | .dispatched =>
    if state.phase = .dispatching false then some { state with phase := .checking } else none

end WakeupState

/-- The event loop and the threads that wake it up, as a transition system. -/
def eventLoop (Thread : Type) [DecidableEq Thread] :
    TransitionSystem (WakeupState Thread) (WakeupLabel Thread) where
  start := {}
  step := WakeupState.step

/-! ### What holds in every state -/

namespace WakeupState

variable {Thread : Type}

/-- The eventfd can be read, or a thread is about to write it. -/
def Woken (state : WakeupState Thread) : Prop :=
  0 < state.count ∨ state.waking.Nonempty

/-- A queued command wakes the loop up unless the loop comes to it anyway, a requested stop wakes it
up while it waits, and the commands pushed are those handled, those swapped out and those queued. -/
structure Heard (state : WakeupState Thread) : Prop where
  queued : state.cmdQ ≠ [] → state.Woken ∨ state.phase.Heeds
  stopped : state.phase = .waiting → state.stopRequested = true → state.Woken
  order : state.pushed = state.handled ++ (state.phase.pending ++ state.cmdQ)

theorem heard_start : ({} : WakeupState Thread).Heard where
  queued hqueued := absurd rfl hqueued
  stopped hwaiting := by cases hwaiting
  order := rfl

variable {state : WakeupState Thread}

/-- A step that leaves the queue, the eventfd and the threads alone, to a phase other than waiting,
from one that does not heed. -/
theorem Heard.move (hheard : state.Heard) {before after : LoopPhase}
    (hphase : state.phase = before) (hheeds : ¬ before.Heeds)
    (hwaiting : after = .waiting → state.stopRequested = false)
    (hpending : after.pending = before.pending) :
    ({ state with phase := after } : WakeupState Thread).Heard := by
  obtain rfl := hphase
  refine ⟨fun hqueued ↦ ?_, fun hafter hstop ↦ ?_, ?_⟩
  · rcases hheard.queued hqueued with hwoken | hheeded
    · exact .inl hwoken
    · exact absurd hheeded hheeds
  · rw [show state.stopRequested = true from hstop] at hwaiting
    exact absurd (hwaiting hafter).symm Bool.false_ne_true
  · rw [hpending]
    exact hheard.order

/-- A write of the eventfd. -/
theorem Heard.write (hheard : state.Heard) (waking : Finset Thread) :
    ({ state with count := requestWakeup state.count, waking := waking } :
      WakeupState Thread).Heard :=
  ⟨fun _ ↦ .inl (.inl (requestWakeup_pos _)), fun _ _ ↦ .inl (requestWakeup_pos _), hheard.order⟩

/-- The wait ends. -/
theorem Heard.consume (hheard : state.Heard) (hphase : state.phase = .waiting) :
    ({ state with phase := .consuming } : WakeupState Thread).Heard := by
  have horder := hheard.order
  rw [hphase] at horder
  exact ⟨fun _ ↦ .inr trivial, nofun, horder⟩

/-- A round of `consume_wakeup`: the loop takes the count, or goes on when it is zero. -/
theorem Heard.read (hheard : state.Heard) (hphase : state.phase = .consuming) :
    ({ state with count := 0 } : WakeupState Thread).Heard ∧
      ({ state with phase := .swapping } : WakeupState Thread).Heard := by
  have horder := hheard.order
  refine ⟨⟨fun _ ↦ .inr ?_, fun hwaiting ↦ ?_, horder⟩, fun _ ↦ .inr trivial, nofun, ?_⟩
  · show state.phase.Heeds
    rw [hphase]
    trivial
  · rw [show state.phase = .waiting from hwaiting] at hphase
    cases hphase
  · rw [hphase] at horder
    exact horder

/-- The loop takes what is queued. -/
theorem Heard.swap (hheard : state.Heard) (hphase : state.phase = .swapping) :
    ({ state with phase := .handling state.cmdQ, cmdQ := [] } : WakeupState Thread).Heard := by
  refine ⟨fun hqueued ↦ absurd rfl hqueued, nofun, ?_⟩
  have horder := hheard.order
  rw [hphase] at horder
  show state.pushed = state.handled ++ (state.cmdQ ++ [])
  rw [List.append_nil]
  exact horder

/-- The loop handles one command. -/
theorem Heard.handle (hheard : state.Heard) {command : RegistryCommand}
    {rest : List RegistryCommand} (hphase : state.phase = .handling (command :: rest)) :
    ({ state with phase := .handling rest, handled := state.handled ++ [command] } :
      WakeupState Thread).Heard := by
  refine ⟨fun hqueued ↦ ?_, nofun, ?_⟩
  · rcases hheard.queued hqueued with hwoken | hheeded
    · exact .inl hwoken
    · rw [hphase] at hheeded
      exact absurd hheeded not_false
  · have horder := hheard.order
    rw [hphase] at horder
    show state.pushed = state.handled ++ [command] ++ (rest ++ state.cmdQ)
    rw [List.append_assoc]
    exact horder

/-- A callback pushes a command; the loop itself is about to write the eventfd. -/
theorem Heard.callback (hheard : state.Heard) (hphase : state.phase = .dispatching false)
    (command : RegistryCommand) :
    ({ state.push command with phase := .dispatching true } : WakeupState Thread).Heard := by
  refine ⟨fun _ ↦ .inr trivial, nofun, ?_⟩
  have horder := hheard.order
  rw [hphase] at horder
  show state.pushed ++ [command] = state.handled ++ (state.cmdQ ++ [command])
  rw [horder, List.append_assoc]
  rfl

/-- The loop writes the eventfd behind a callback. -/
theorem Heard.callbackWrite (hheard : state.Heard) (hphase : state.phase = .dispatching true) :
    ({ state with phase := .dispatching false, count := requestWakeup state.count } :
      WakeupState Thread).Heard := by
  have horder := hheard.order
  rw [hphase] at horder
  exact ⟨fun _ ↦ .inl (.inl (requestWakeup_pos state.count)), nofun, horder⟩

variable [DecidableEq Thread] {label : WakeupLabel Thread} {next : WakeupState Thread}

/-- A command is pushed, and the thread is about to write the eventfd. -/
theorem Heard.push (hheard : state.Heard) (thread : Thread) (command : RegistryCommand) :
    ({ state.push command with waking := insert thread state.waking } :
      WakeupState Thread).Heard := by
  have hwaking := Finset.insert_nonempty thread state.waking
  refine ⟨fun _ ↦ .inl (.inr hwaking), fun _ _ ↦ .inr hwaking, ?_⟩
  show state.pushed ++ [command] =
    state.handled ++ (state.phase.pending ++ (state.cmdQ ++ [command]))
  rw [hheard.order, List.append_assoc, List.append_assoc]

/-- A stop is requested: its callback writes the eventfd where the loop has come to it. -/
theorem Heard.requestStop (hheard : state.Heard) {thread : Thread}
    (hstep : state.step (.requestStop thread) = some next) : next.Heard := by
  simp only [WakeupState.step] at hstep
  split_ifs at hstep with hbusy hrequested hphase
  · rw [← Option.some.inj hstep]
    exact hheard
  · rw [← Option.some.inj hstep]
    refine ⟨hheard.queued, fun hwaiting ↦ ?_, hheard.order⟩
    rw [show state.phase = .waiting from hwaiting] at hphase
    rcases hphase with hphase | hphase <;> cases hphase
  · rw [← Option.some.inj hstep]
    have hwaking := Finset.insert_nonempty thread state.waking
    exact ⟨fun _ ↦ .inl (.inr hwaking), fun _ _ ↦ .inr hwaking, hheard.order⟩

theorem Heard.step (hheard : state.Heard) (hstep : state.step label = some next) :
    next.Heard := by
  cases label with
  | push thread command =>
    simp only [WakeupState.step] at hstep
    split_ifs at hstep with hbusy
    rw [← Option.some.inj hstep]
    exact hheard.push thread command
  | requestStop thread => exact hheard.requestStop hstep
  | write thread =>
    simp only [WakeupState.step] at hstep
    split_ifs at hstep with hwaking
    rw [← Option.some.inj hstep]
    exact hheard.write _
  | wakeup =>
    rw [← Option.some.inj hstep]
    exact hheard.write _
  | construct =>
    simp only [WakeupState.step] at hstep
    split_ifs at hstep with hphase hrequested
    · rw [← Option.some.inj hstep]
      exact (hheard.write state.waking).move hphase not_false nofun rfl
    · rw [← Option.some.inj hstep]
      exact hheard.move hphase not_false nofun rfl
  | check =>
    simp only [WakeupState.step] at hstep
    split_ifs at hstep with hphase hrequested
    all_goals rw [← Option.some.inj hstep]
    · exact hheard.move hphase not_false nofun rfl
    · exact hheard.move hphase not_false (fun _ ↦ Bool.eq_false_of_not_eq_true hrequested) rfl
  | epollWait othersReady =>
    simp only [WakeupState.step] at hstep
    split_ifs at hstep with hready
    rw [← Option.some.inj hstep]
    exact hheard.consume hready.1
  | interrupted =>
    simp only [WakeupState.step] at hstep
    split_ifs at hstep with hphase
    rw [← Option.some.inj hstep]
    exact hheard.move hphase not_false nofun rfl
  | waitFails =>
    simp only [WakeupState.step] at hstep
    split_ifs at hstep with hphase
    rw [← Option.some.inj hstep]
    exact hheard.move hphase not_false nofun rfl
  | read =>
    simp only [WakeupState.step] at hstep
    split_ifs at hstep with hphase hcount
    all_goals rw [← Option.some.inj hstep]
    · exact (hheard.read hphase).1
    · exact (hheard.read hphase).2
  | swap =>
    simp only [WakeupState.step] at hstep
    split_ifs at hstep with hphase
    rw [← Option.some.inj hstep]
    exact hheard.swap hphase
  | handle =>
    simp only [WakeupState.step] at hstep
    split at hstep
    · next hphase =>
      rw [← Option.some.inj hstep]
      exact hheard.move hphase not_false nofun rfl
    · next command rest hphase =>
      rw [← Option.some.inj hstep]
      exact hheard.handle hphase
    · cases hstep
  | recheck =>
    simp only [WakeupState.step] at hstep
    split_ifs at hstep with hphase hrequested
    all_goals
      rw [← Option.some.inj hstep]
      exact hheard.move hphase not_false nofun rfl
  | callback command =>
    simp only [WakeupState.step] at hstep
    split_ifs at hstep with hphase
    rw [← Option.some.inj hstep]
    exact hheard.callback hphase command
  | callbackWrite =>
    simp only [WakeupState.step] at hstep
    split_ifs at hstep with hphase
    rw [← Option.some.inj hstep]
    exact hheard.callbackWrite hphase
  | dispatched =>
    simp only [WakeupState.step] at hstep
    split_ifs at hstep with hphase
    rw [← Option.some.inj hstep]
    exact hheard.move hphase not_false nofun rfl

theorem heard_of_reachable (hreach : (eventLoop Thread).Reachable state) : state.Heard :=
  hreach.induction heard_start fun _ _ _ _ ih _ hstep ↦ ih.step hstep

end WakeupState

/-- No wake-up is lost. When the event loop comes to `epoll_wait` and the eventfd is empty, nothing
is queued and no stop is requested, or a thread is about to write the eventfd. The commands handled
are a prefix of the commands pushed, and all of them when the loop can only sleep. -/
theorem no_wakeup_lost (Thread : Type) [DecidableEq Thread] (state : WakeupState Thread)
    (hreach : (eventLoop Thread).Reachable state) :
    (state.phase = .waiting → state.count = 0 →
      (state.cmdQ = [] ∧ state.stopRequested = false) ∨ state.waking.Nonempty) ∧
      state.handled <+: state.pushed ∧
      (state.phase = .waiting → state.count = 0 → state.waking = ∅ →
        state.handled = state.pushed) := by
  have hheard := WakeupState.heard_of_reachable hreach
  have hblocked : state.phase = .waiting → state.count = 0 →
      (state.cmdQ = [] ∧ state.stopRequested = false) ∨ state.waking.Nonempty := by
    intro hphase hcount
    have hempty : ¬ 0 < state.count := by omega
    by_cases hwaking : state.waking.Nonempty
    · exact .inr hwaking
    · have hwoken : ¬ state.Woken := not_or.mpr ⟨hempty, hwaking⟩
      refine .inl ⟨?_, Bool.eq_false_of_not_eq_true fun hstop ↦
        hwoken (hheard.stopped hphase hstop)⟩
      by_contra hqueued
      rcases hheard.queued hqueued with hwoken' | hheeds
      · exact hwoken hwoken'
      · rw [hphase] at hheeds
        exact hheeds
  refine ⟨hblocked, ?_, fun hphase hcount hwaking ↦ ?_⟩
  · rw [hheard.order]
    exact List.prefix_append _ _
  · rcases hblocked hphase hcount with ⟨hqueue, -⟩ | hnonempty
    · have horder := hheard.order
      rw [hphase, hqueue] at horder
      exact (horder.trans (List.append_nil _)).symm
    · rw [hwaking] at hnonempty
      exact absurd hnonempty Finset.not_nonempty_empty

/-- Two threads push a command each, the second one after the loop has found its queue empty. -/
theorem no_wakeup_lost_twoProducers : ∃ state : WakeupState Nat,
    (eventLoop Nat).Reachable state ∧ state.pushed.length = 2 ∧ state.handled.length = 1 ∧
      state.handled <+: state.pushed ∧
      ((state.cmdQ = [] ∧ state.stopRequested = false) ∨ state.waking.Nonempty) := by
  let labels : List (WakeupLabel Nat) :=
    [.construct, .check, .push 1 (.unregister 5), .write 1, .epollWait false, .read, .read, .swap,
      .handle, .handle, .recheck, .push 2 (.unregister 6), .dispatched, .check]
  have hrun : ((eventLoop Nat).run (eventLoop Nat).start labels).map (fun state ↦
      (state.phase, state.count, state.pushed.length, state.handled.length)) =
        some (.waiting, 0, 2, 1) := by
    decide +kernel
  obtain ⟨state, hstate, hseen⟩ := Option.map_eq_some_iff.mp hrun
  have hreach : (eventLoop Nat).Reachable state := .of_run hstate
  obtain ⟨hblocked, hprefix, -⟩ := no_wakeup_lost Nat state hreach
  rw [Prod.mk.injEq, Prod.mk.injEq, Prod.mk.injEq] at hseen
  obtain ⟨hphase, hcount, hpushed, hhandled⟩ := hseen
  exact ⟨state, hreach, hpushed, hhandled, hprefix, hblocked hphase hcount⟩

end ChatServer
