import ChatServer.Server.ServerStop

/-!
# The end of a server

`epoll_server::run` returns when it has joined the acceptor and the event loop. `Ledger` is what the
two bring: its answer is the first error that one of them has signalled, and no error exactly when
neither had one (`server_answer`).

Every step that needs nothing from outside leaves the threads less to do (`serverRun_shrinks`), and
while one of them is in its loop after the stop, there is such a step. A server that was asked to
stop therefore comes to its end in a bounded number of steps, as long as nothing more comes from
outside and neither a worker nor a callback pushes another command (`server_returns`).
-/

set_option autoImplicit false
set_option relaxedAutoImplicit false

namespace ChatServer

/-! ### What the threads may do when nothing comes from outside -/

/-- The steps of the event loop that need nothing but the eventfd, and push no command. -/
def WakeupLabel.Prompt {Thread : Type} : WakeupLabel Thread → Prop
  | .epollWait othersReady => othersReady = false
  | .interrupted | .waitFails | .callback _ => False
  | _ => True

/-- The steps of the two loops when no descriptor but an eventfd is ready, no connection comes in,
no callback of an event pushes a command, no signal interrupts and no wait fails. -/
def ServerInput.Prompt : ServerThread → ServerInput → Prop
  | .event, .loop label _ => label.Prompt
  | .accept, .acceptWait events => events = [.wakeup]
  | .accept, .accept outcome => ∃ errno, outcome = .error errno ∧ errno ≠ acceptInterrupted
  | .accept, .interrupted | .accept, .waitFails _ => False
  | .accept, _ => True
  | _, _ => False

/-- The eventfd writes of the workers that have pushed. Another push is none of these. -/
def ServerInput.Late : ServerInput → Prop
  | .loop (.write (.worker _)) _ => True
  | _ => False

/-- What the event loop may do before it waits again. -/
def LoopPhase.rank : LoopPhase → Nat
  | .left | .waiting => 0
  | .checking => 1
  | .dispatching false => 2
  | .dispatching true => 12
  | .rechecking => 3
  | .handling pending => 4 + pending.length
  | .swapping => 5
  | .consuming => 6
  | .starting => 10

/-- What the count of its eventfd makes the event loop do. -/
def LoopPhase.due (phase : LoopPhase) (count : Nat) : Nat :=
  if count = 0 then 0 else if phase = .consuming then 1 else 8

/-- What the event loop may do, and the threads that wake it up. -/
def WakeupState.size {Thread : Type} (state : WakeupState Thread) : Nat :=
  9 * state.waking.card + state.phase.due state.count + state.cmdQ.length + state.phase.rank

/-- What the acceptor may do before it waits again. -/
def AcceptPhase.rank : AcceptPhase → Nat
  | .left | .waiting => 0
  | .checking => 1
  | .scanning rest => 2 + 3 * rest.length
  | .consuming rest | .accepting rest => 3 + 3 * rest.length
  | .waking rest => 4 + 3 * rest.length
  | .registering _ rest => 15 + 3 * rest.length
  | .starting => 14

/-- What a positive count of its eventfd makes the acceptor do. -/
def AcceptPhase.worth : AcceptPhase → Nat
  | .left => 0
  | .consuming _ => 1
  | .scanning rest | .accepting rest | .registering _ rest | .waking rest =>
    if .wakeup ∈ rest then 1 else 12
  | _ => 12

/-- What the count of its eventfd makes the acceptor do. -/
def AcceptPhase.due (phase : AcceptPhase) (count : Nat) : Nat :=
  if count = 0 then 0 else phase.worth

/-- What the server may do when nothing comes from outside. -/
def ServerThreads.size (state : ServerThreads) : Nat :=
  state.loop.size + state.acceptor.due state.acceptCount + state.acceptor.rank

theorem LoopPhase.due_le (phase : LoopPhase) (count : Nat) : phase.due count ≤ 8 := by
  unfold LoopPhase.due
  split_ifs <;> decide

theorem LoopPhase.due_of_pos {phase : LoopPhase} {count : Nat} (hcount : 0 < count) :
    phase.due count = if phase = .consuming then 1 else 8 :=
  if_neg (Nat.ne_of_gt hcount)

namespace WakeupState

variable {Thread : Type} [DecidableEq Thread] {state next : WakeupState Thread}

theorem size_push {thread : Thread} {command : RegistryCommand}
    (hstep : state.step (.push thread command) = some next) : next.size = state.size + 10 := by
  obtain ⟨hwaking, rfl⟩ := push_step hstep
  simp only [size, push, Finset.card_insert_of_notMem hwaking, List.length_append,
    List.length_singleton]
  omega

theorem size_write {thread : Thread} (hstep : state.step (.write thread) = some next) :
    next.size < state.size := by
  obtain ⟨hwaking, rfl⟩ := write_step hstep
  have hcard := Finset.card_erase_add_one hwaking
  have hdue := state.phase.due_le (requestWakeup state.count)
  simp only [size]
  omega

theorem size_wakeup (hstep : state.step .wakeup = some next) : next.size ≤ state.size + 8 := by
  cases hstep
  have hdue := state.phase.due_le (requestWakeup state.count)
  simp only [size]
  omega

theorem size_requestStop {thread : Thread} (hstep : state.step (.requestStop thread) = some next) :
    next.size ≤ state.size + 9 := by
  obtain ⟨hnot, hphase, -, hcount, hqueue, hwaking⟩ := requestStop_step hstep
  have hcard : next.waking.card ≤ state.waking.card + 1 := by
    rcases hwaking with hwaking | hwaking
    · rw [hwaking]
      exact Nat.le_succ _
    · rw [hwaking, Finset.card_insert_of_notMem hnot]
  simp only [size, hphase, hcount, hqueue]
  omega

omit [DecidableEq Thread] in
/-- A step of the event loop to a phase with less to do, with the same count. -/
theorem size_move {phase : LoopPhase} {queue handled : List RegistryCommand}
    (hdue : phase.due state.count ≤ state.phase.due state.count)
    (hrank : queue.length + phase.rank < state.cmdQ.length + state.phase.rank) :
    ({ state with phase := phase, cmdQ := queue, handled := handled } :
      WakeupState Thread).size < state.size := by
  simp only [size]
  omega

/-- Every step of the event loop that needs nothing but the eventfd leaves less to do. -/
theorem size_ofLoop {label : WakeupLabel Thread} (hloop : label.OfLoop = true)
    (hprompt : label.Prompt) (hstep : state.step label = some next) : next.size < state.size := by
  cases label with
  | push _ _ => cases hloop
  | requestStop _ => cases hloop
  | write _ => cases hloop
  | wakeup => cases hloop
  | interrupted => exact hprompt.elim
  | waitFails => exact hprompt.elim
  | callback _ => exact hprompt.elim
  | construct =>
    simp only [step] at hstep
    split_ifs at hstep with hphase hstop
    all_goals cases hstep
    · have hdue := LoopPhase.checking.due_le (requestWakeup state.count)
      simp only [size, hphase, LoopPhase.rank]
      omega
    · exact size_move (by rw [hphase]; exact le_rfl)
        (Nat.add_lt_add_left (by rw [hphase]; decide) _)
  | check =>
    simp only [step] at hstep
    split_ifs at hstep with hphase hstop
    all_goals
      cases hstep
      exact size_move (by rw [hphase]; exact le_rfl)
        (Nat.add_lt_add_left (by rw [hphase]; decide) _)
  | epollWait othersReady =>
    simp only [step] at hstep
    split_ifs at hstep with hready
    cases hstep
    obtain ⟨hphase, hcount | hother⟩ := hready
    · have hbefore : LoopPhase.waiting.due state.count = 8 := LoopPhase.due_of_pos hcount
      have hafter : LoopPhase.consuming.due state.count = 1 := LoopPhase.due_of_pos hcount
      simp only [size, hphase, LoopPhase.rank, hbefore, hafter]
      omega
    · exact absurd ((show othersReady = false from hprompt).symm.trans hother) Bool.false_ne_true
  | read =>
    simp only [step] at hstep
    split_ifs at hstep with hphase hcount
    all_goals cases hstep
    · have hbefore : LoopPhase.consuming.due state.count = 1 := LoopPhase.due_of_pos hcount
      have hafter : LoopPhase.consuming.due 0 = 0 := rfl
      simp only [size, hphase, hbefore, hafter]
      omega
    · obtain hzero : state.count = 0 := Nat.eq_zero_of_not_pos hcount
      exact size_move (by rw [hzero]; exact Nat.zero_le _)
        (Nat.add_lt_add_left (by rw [hphase]; decide) _)
  | swap =>
    simp only [step] at hstep
    split_ifs at hstep with hphase
    cases hstep
    refine size_move (by rw [hphase]; exact le_rfl) ?_
    rw [hphase]
    simp only [LoopPhase.rank, List.length_nil]
    omega
  | handle =>
    simp only [step] at hstep
    split at hstep
    · next hphase =>
      cases hstep
      exact size_move (by rw [hphase]; exact le_rfl)
        (Nat.add_lt_add_left (by rw [hphase]; decide) _)
    · next hphase =>
      cases hstep
      refine size_move (by rw [hphase]; exact le_rfl) (Nat.add_lt_add_left ?_ _)
      rw [hphase]
      simp only [LoopPhase.rank, List.length_cons]
      omega
    · cases hstep
  | recheck =>
    simp only [step] at hstep
    split_ifs at hstep with hphase hstop
    all_goals
      cases hstep
      exact size_move (by rw [hphase]; exact le_rfl)
        (Nat.add_lt_add_left (by rw [hphase]; decide) _)
  | callbackWrite =>
    simp only [step] at hstep
    split_ifs at hstep with hphase
    cases hstep
    have hdue := (LoopPhase.dispatching false).due_le (requestWakeup state.count)
    simp only [size, hphase, LoopPhase.rank]
    omega
  | dispatched =>
    simp only [step] at hstep
    split_ifs at hstep with hphase
    cases hstep
    exact size_move (by rw [hphase]; exact le_rfl)
      (Nat.add_lt_add_left (by rw [hphase]; decide) _)

end WakeupState

/-! ### The acceptor -/

namespace AcceptPhase

theorem worth_le (phase : AcceptPhase) : phase.worth ≤ 12 := by
  unfold worth
  split
  all_goals first | omega | (split_ifs <;> omega)

theorem due_le (phase : AcceptPhase) (count : Nat) : phase.due count ≤ 12 := by
  unfold due
  split_ifs
  · omega
  · exact phase.worth_le

theorem due_mono {phase later : AcceptPhase} (hworth : later.worth ≤ phase.worth) (count : Nat) :
    later.due count ≤ phase.due count := by
  unfold due
  split_ifs
  · exact le_rfl
  · exact hworth

end AcceptPhase

namespace ServerThreads

variable {state : ServerThreads}

theorem size_event {label : WakeupLabel Waker} {ec : Nat}
    {result : ServerThreads × Option (Ending Nat)} (hprompt : label.Prompt)
    (hstep : state.eventStep label ec = some result) : result.1.size < state.size := by
  unfold eventStep at hstep
  split_ifs at hstep with hloop
  obtain ⟨loop, hnext, rfl⟩ := Option.map_eq_some_iff.mp hstep
  have hsize := WakeupState.size_ofLoop hloop hprompt hnext
  dsimp only
  split_ifs
  all_goals
    simp only [size, leave]
    omega

/-- A step of the acceptor to a phase with less to do, with the same count. -/
theorem size_accept {phase : AcceptPhase} {errors : ServerThread → Option Nat}
    (hworth : phase.worth ≤ state.acceptor.worth) (hrank : phase.rank < state.acceptor.rank) :
    ({ state with acceptor := phase, errors := errors } : ServerThreads).size < state.size := by
  have hdue := AcceptPhase.due_mono hworth state.acceptCount
  simp only [size]
  omega

section AcceptStep

variable {result : ServerThreads × Option (Ending Nat)}

/-- The stop callback of the acceptor, registered with the stop requested or not. -/
theorem size_construct (hstep : state.acceptStep .construct = some result) :
    result.1.size < state.size := by
  dsimp only [acceptStep] at hstep
  split_ifs at hstep with hphase hstop
  all_goals cases hstep
  · have hdue := AcceptPhase.checking.due_le (requestWakeup state.acceptCount)
    simp only [size, hphase, AcceptPhase.rank]
    omega
  · exact @size_accept state .checking _ (by rw [hphase]; exact le_rfl) (by rw [hphase]; decide)

/-- The wait ends with the eventfd alone. -/
theorem size_acceptWait (hstep : state.acceptStep (.acceptWait [.wakeup]) = some result) :
    result.1.size < state.size := by
  dsimp only [acceptStep] at hstep
  split_ifs at hstep with hready
  cases hstep
  obtain ⟨hphase, -, hcount⟩ := hready
  have hzero : state.acceptCount ≠ 0 := Nat.ne_of_gt (hcount List.mem_cons_self)
  have hbefore : AcceptPhase.waiting.due state.acceptCount = 12 := if_neg hzero
  have hafter : (AcceptPhase.scanning [.wakeup]).due state.acceptCount = 1 := if_neg hzero
  simp only [size, hphase, hbefore, hafter, AcceptPhase.rank, List.length_singleton]
  omega

/-- The acceptor comes to its next event, or has none left. -/
theorem size_scan (hstep : state.acceptStep .scan = some result) :
    result.1.size < state.size := by
  dsimp only [acceptStep] at hstep
  split at hstep
  · next hphase =>
    cases hstep
    exact size_accept (by rw [hphase]; decide) (by rw [hphase]; decide)
  · next rest hphase =>
    cases hstep
    refine size_accept ?_ ?_
    · rw [hphase]
      simp only [AcceptPhase.worth, List.mem_cons_self, if_true]
      exact le_rfl
    · rw [hphase]
      simp only [AcceptPhase.rank, List.length_cons]
      omega
  · next hphase =>
    cases hstep
    refine @size_accept state .left _ (Nat.zero_le _) ?_
    rw [hphase]
    simp only [AcceptPhase.rank]
    omega
  · next rest hphase =>
    cases hstep
    refine size_accept ?_ ?_
    · rw [hphase]
      simp [AcceptPhase.worth]
    · rw [hphase]
      simp only [AcceptPhase.rank, List.length_cons]
      omega
  · cases hstep

/-- A round of `consume_wakeup`. -/
theorem size_read (hstep : state.acceptStep .read = some result) :
    result.1.size < state.size := by
  dsimp only [acceptStep] at hstep
  split at hstep
  · next rest hphase =>
    split_ifs at hstep with hcount
    · cases hstep
      have hbefore : (AcceptPhase.consuming rest).due state.acceptCount = 1 :=
        if_neg (Nat.ne_of_gt hcount)
      have hafter : (AcceptPhase.consuming rest).due 0 = 0 := rfl
      simp only [size, hphase, hbefore, hafter]
      omega
    · cases hstep
      have hzero : state.acceptCount = 0 := Nat.eq_zero_of_not_pos hcount
      have hafter : (AcceptPhase.scanning rest).due 0 = 0 := rfl
      simp only [size, hphase, hzero, hafter, AcceptPhase.rank]
      omega
  · cases hstep

/-- Every step of the acceptor that needs nothing but its eventfd leaves less to do. -/
theorem size_acceptStep {input : ServerInput} (hprompt : ServerInput.Prompt .accept input)
    (hstep : state.acceptStep input = some result) : result.1.size < state.size := by
  cases input with
  | construct => exact size_construct hstep
  | check =>
    dsimp only [acceptStep] at hstep
    split_ifs at hstep with hphase hstop
    all_goals cases hstep
    · exact @size_accept state .left _ (by rw [hphase]; decide) (by rw [hphase]; decide)
    · exact size_accept (by rw [hphase]; decide) (by rw [hphase]; decide)
  | acceptWait events =>
    obtain rfl : events = [.wakeup] := hprompt
    exact size_acceptWait hstep
  | interrupted => exact hprompt.elim
  | waitFails _ => exact hprompt.elim
  | scan => exact size_scan hstep
  | read => exact size_read hstep
  | accept outcome =>
    obtain ⟨errno, rfl, hother⟩ := hprompt
    dsimp only [acceptStep] at hstep
    split at hstep
    · next rest hphase =>
      rw [if_neg hother] at hstep
      cases hstep
      refine size_accept (by rw [hphase]; exact le_rfl) ?_
      rw [hphase]
      simp only [AcceptPhase.rank]
      omega
    · cases hstep
  | register =>
    dsimp only [acceptStep] at hstep
    split at hstep
    · next fd rest hphase =>
      obtain ⟨loop, hnext, rfl⟩ := Option.map_eq_some_iff.mp hstep
      have hloop := WakeupState.size_push hnext
      have hdue : (AcceptPhase.waking rest).due state.acceptCount =
          (AcceptPhase.registering fd rest).due state.acceptCount := rfl
      simp only [size, hphase, hdue, AcceptPhase.rank]
      omega
    · cases hstep
  | write =>
    dsimp only [acceptStep] at hstep
    split at hstep
    · next rest hphase =>
      obtain ⟨loop, hnext, rfl⟩ := Option.map_eq_some_iff.mp hstep
      have hloop := WakeupState.size_write hnext
      have hdue : (AcceptPhase.accepting rest).due state.acceptCount =
          (AcceptPhase.waking rest).due state.acceptCount := rfl
      simp only [size, hphase, hdue, AcceptPhase.rank]
      omega
    · cases hstep
  | _ => cases hstep

end AcceptStep

theorem size_obey {order : ServerOrder} {next : ServerThreads}
    (hobey : state.obey order = some next) : next.size ≤ state.size + 12 := by
  have hdue := state.acceptor.due_le (requestWakeup state.acceptCount)
  cases order with
  | stopEvent =>
    obtain ⟨loop, hstep, rfl⟩ := Option.map_eq_some_iff.mp hobey
    have hloop := WakeupState.size_requestStop hstep
    simp only [size]
    omega
  | callEvent =>
    dsimp only [obey] at hobey
    split_ifs at hobey
    · obtain ⟨loop, hstep, rfl⟩ := Option.map_eq_some_iff.mp hobey
      have hloop := WakeupState.size_write hstep
      simp only [size]
      omega
    · cases hobey
      exact Nat.le_add_right _ _
  | stopAccept =>
    cases hobey
    exact Nat.le_add_right _ _
  | callAccept =>
    dsimp only [obey] at hobey
    split_ifs at hobey
    · cases hobey
      simp only [size]
      omega
    · cases hobey
      exact Nat.le_add_right _ _
  | wakeRegistry =>
    have hloop := WakeupState.size_wakeup (show state.loop.step .wakeup = some _ from rfl)
    cases hobey
    simp only [size]
    omega
  | wakeListener =>
    cases hobey
    simp only [size]
    omega

end ServerThreads

theorem serverRun_shrinks :
    serverRun.Shrinks ServerInput.Prompt ServerInput.Late ServerThreads.size 12 where
  work thread input shared next ending hprompt hwork := by
    cases thread with
    | event =>
      cases input with
      | loop label ec =>
        exact @ServerThreads.size_event shared label ec (next, ending) hprompt hwork
      | _ => exact hprompt.elim
    | accept => exact @ServerThreads.size_acceptStep shared (next, ending) input hprompt hwork
    | caller => exact hprompt.elim
  obey _ _ _ hobey := ServerThreads.size_obey hobey
  outside input shared next hlate hinput := by
    change shared.workerStep input = some next at hinput
    unfold ServerThreads.workerStep at hinput
    split at hinput
    · exact hlate.elim
    · obtain ⟨loop, hwrite, rfl⟩ := Option.map_eq_some_iff.mp hinput
      have hloop := WakeupState.size_write hwrite
      simp only [ServerThreads.size]
      omega
    · cases hinput

/-! ### Where the server can do nothing -/

namespace RunState

variable {state next : RunState}

/-- Nothing can happen in this state unless something comes from outside. -/
def Blocked (state : RunState) : Prop :=
  ∀ label : SupervisionLabel ServerThread ServerInput,
    label.Internal ServerInput.Prompt ServerInput.Late → state.step serverRun label = none

theorem Blocked.work (hblocked : state.Blocked) {thread : ServerThread} {input : ServerInput}
    (hprompt : input.Prompt thread) (hrunning : state.helpers thread = .running) :
    serverRun.work thread input state.shared = none := by
  have hnone := hblocked (.work thread input) hprompt
  simp only [Supervised.step, hrunning, Option.map_eq_none_iff] at hnone
  exact hnone

theorem Blocked.loop_step (hblocked : state.Blocked) (hrunning : state.helpers .event = .running)
    {label : WakeupLabel Waker} (hloop : label.OfLoop = true) (hprompt : label.Prompt) :
    state.shared.loop.step label = none := by
  have hnone : state.shared.eventStep label 0 = none :=
    @Blocked.work _ hblocked .event (.loop label 0) hprompt hrunning
  unfold ServerThreads.eventStep at hnone
  rwa [if_pos hloop, Option.map_eq_none_iff] at hnone

/-- While `run` joins, no thread that could write the eventfd of the event loop still has to. -/
theorem Blocked.waking (hblocked : state.Blocked) (hserved : state.Served)
    {thread : ServerThread} {rest : List (Duty ServerThread ServerOrder)}
    (hphase : state.phase = .performing (.join thread :: rest)) :
    state.shared.loop.waking = ∅ := by
  refine Finset.eq_empty_iff_forall_notMem.mpr fun waker hwaker ↦ ?_
  cases waker with
  | main =>
    obtain ⟨later, hlater⟩ := hserved.calling hwaker
    rw [hphase] at hlater
    cases hlater
  | acceptor =>
    obtain ⟨later, hlater⟩ := hserved.pushing.mp hwaker
    have hnone : state.shared.acceptStep .write = none :=
      @Blocked.work _ hblocked .accept .write trivial (hserved.accept.mpr (by rw [hlater]; nofun))
    simp [ServerThreads.acceptStep, hlater, WakeupState.step, hwaker] at hnone
  | worker index =>
    have hnone := hblocked (.outside (.loop (.write (.worker index)) 0)) trivial
    simp [Supervised.step, serverRun, ServerThreads.workerStep, WakeupState.step, hwaker] at hnone

/-- The event loop does not stay in its loop when it was asked to stop. -/
theorem Blocked.event_ended (hblocked : state.Blocked) (hserved : state.Served)
    (hwaking : state.shared.loop.waking = ∅) (hasked : state.shared.loop.stopRequested = true) :
    state.helpers .event ≠ .running := by
  intro hrunning
  cases hphase : state.shared.loop.phase with
  | starting =>
    have hnone := hblocked.loop_step hrunning (show WakeupLabel.construct.OfLoop = true from rfl)
      trivial
    simp [WakeupState.step, hphase] at hnone
  | checking =>
    have hnone := hblocked.loop_step hrunning (show WakeupLabel.check.OfLoop = true from rfl)
      trivial
    simp [WakeupState.step, hphase] at hnone
  | waiting =>
    -- the stop has woken the loop up
    have hcount : 0 < state.shared.loop.count := by
      rcases hserved.heard.stopped hphase hasked with hcount | hwaiting
      · exact hcount
      · exact absurd hwaking hwaiting.ne_empty
    have hnone := hblocked.loop_step hrunning
      (show (WakeupLabel.epollWait false).OfLoop = true from rfl) rfl
    simp [WakeupState.step, hphase, hcount] at hnone
  | consuming =>
    have hnone := hblocked.loop_step hrunning (show WakeupLabel.read.OfLoop = true from rfl)
      trivial
    simp only [WakeupState.step, hphase, if_true] at hnone
    split_ifs at hnone
  | swapping =>
    have hnone := hblocked.loop_step hrunning (show WakeupLabel.swap.OfLoop = true from rfl)
      trivial
    simp [WakeupState.step, hphase] at hnone
  | handling pending =>
    have hnone := hblocked.loop_step hrunning (show WakeupLabel.handle.OfLoop = true from rfl)
      trivial
    cases pending <;> simp [WakeupState.step, hphase] at hnone
  | rechecking =>
    have hnone := hblocked.loop_step hrunning (show WakeupLabel.recheck.OfLoop = true from rfl)
      trivial
    simp [WakeupState.step, hphase] at hnone
  | dispatching pushed =>
    cases pushed with
    | false =>
      have hnone := hblocked.loop_step hrunning
        (show WakeupLabel.dispatched.OfLoop = true from rfl) trivial
      simp [WakeupState.step, hphase] at hnone
    | true =>
      have hnone := hblocked.loop_step hrunning
        (show WakeupLabel.callbackWrite.OfLoop = true from rfl) trivial
      simp [WakeupState.step, hphase] at hnone
  | left => exact hserved.event.mp hrunning hphase

/-- The acceptor does not stay in its loop when it was asked to stop. -/
theorem Blocked.accept_ended (hblocked : state.Blocked) (hserved : state.Served)
    (hwaking : state.shared.loop.waking = ∅) (hcallback : state.shared.acceptWaking = false)
    (hasked : state.shared.acceptStop = true) : state.helpers .accept ≠ .running := by
  intro hrunning
  have hstep : ∀ input : ServerInput, input.Prompt .accept →
      state.shared.acceptStep input = none := fun _ hprompt ↦ hblocked.work hprompt hrunning
  cases hphase : state.shared.acceptor with
  | starting =>
    have hnone := hstep .construct trivial
    simp [ServerThreads.acceptStep, hphase] at hnone
  | checking =>
    have hnone := hstep .check trivial
    simp [ServerThreads.acceptStep, hphase] at hnone
  | waiting =>
    -- the stop has woken the acceptor up
    have hcount : 0 < state.shared.acceptCount := by
      rcases hserved.woken hphase hasked with hcount | hwaiting
      · exact hcount
      · exact absurd (hcallback.symm.trans hwaiting) Bool.false_ne_true
    have hnone := hstep (.acceptWait [.wakeup]) rfl
    simp [ServerThreads.acceptStep, hphase, hcount] at hnone
  | scanning events =>
    have hnone := hstep .scan trivial
    rcases events with _ | ⟨_ | _ | _, _⟩ <;>
      simp [ServerThreads.acceptStep, hphase] at hnone
  | consuming events =>
    have hnone := hstep .read trivial
    simp only [ServerThreads.acceptStep, hphase] at hnone
    split_ifs at hnone
  | accepting events =>
    have hnone := hstep (.accept (.error 11)) ⟨11, rfl, by decide⟩
    simp [ServerThreads.acceptStep, hphase, acceptInterrupted] at hnone
  | registering fd events =>
    have hnone := hstep .register trivial
    simp [ServerThreads.acceptStep, hphase, WakeupState.step, hwaking] at hnone
  | waking events =>
    have hmem := hserved.pushing.mpr ⟨events, hphase⟩
    rw [hwaking] at hmem
    exact absurd hmem (Finset.notMem_empty _)
  | left => exact hserved.accept.mp hrunning hphase

/-- No order has to wait. -/
theorem Served.obeyed (hserved : state.Served) {order : ServerOrder}
    {rest : List (Duty ServerThread ServerOrder)}
    (hphase : state.phase = .performing (.order order :: rest)) :
    state.shared.obey order ≠ none := by
  cases order with
  | stopEvent =>
    have hmain : .main ∉ state.shared.loop.waking := by
      intro hwaking
      obtain ⟨later, hlater⟩ := hserved.calling hwaking
      rw [hphase] at hlater
      cases hlater
    simp only [ServerThreads.obey, WakeupState.step, if_neg hmain, ne_eq, Option.map_eq_none_iff]
    split_ifs <;> exact not_false
  | callEvent =>
    dsimp only [ServerThreads.obey]
    split_ifs with hwaking
    · simp only [WakeupState.step, if_pos hwaking]
      exact Option.some_ne_none _
    · exact Option.some_ne_none _
  | callAccept =>
    dsimp only [ServerThreads.obey]
    split_ifs <;> exact Option.some_ne_none _
  | _ => exact Option.some_ne_none _

/-- When the stop was requested and nothing can happen, `run` has returned. -/
theorem returned_of_blocked (hblocked : state.Blocked) (hreach : serverRun.system.Reachable state)
    (hstop : state.stopRequested = true) : state.Returned := by
  have hserved := served_of_reachable hreach
  have hsound := Supervised.sound_of_reachable hreach
  rcases hsound.blocked hstop (hblocked .check trivial) (hblocked .perform trivial)
    (fun thread ↦ hblocked (.signal thread) trivial)
    (fun thread ↦ hblocked (.notify thread) trivial) with
    hreturned | ⟨order, rest, hphase, hobey⟩ | ⟨thread, rest, hphase, hrunning⟩
  · exact hreturned
  · exact absurd hobey (hserved.obeyed hphase)
  · obtain ⟨done, hdone⟩ := hsound.performing _ hphase
    have hnone := order_notMem_of_join hdone.split
    have hwaking := hblocked.waking hserved hphase
    cases thread with
    | event =>
      exact absurd hrunning (hblocked.event_ended hserved hwaking
        ((hserved.eventAsked _ hphase).resolve_left (hnone _)))
    | accept =>
      have hcallback : state.shared.acceptWaking = false := by
        refine Bool.eq_false_of_not_eq_true fun hcalling ↦ ?_
        obtain ⟨later, hlater⟩ := hserved.callback hcalling
        rw [hphase] at hlater
        cases hlater
      exact absurd hrunning (hblocked.accept_ended hserved hwaking hcallback
        ((hserved.acceptAsked _ hphase).resolve_left (hnone _)))
    | caller =>
      have hsplit : serverDuties = done ++ .join .caller :: rest := hdone.split
      have hmem : Duty.join ServerThread.caller ∈ serverDuties :=
        hsplit ▸ List.mem_append_right _ List.mem_cons_self
      simp [serverDuties] at hmem

end RunState

/-! ### What the threads bring -/

/-- A thread records its error when it leaves, and every error recorded is brought, before it is
signalled or behind it. -/
structure RunState.Ledger (state : RunState) : Prop where
  running : ∀ thread, state.helpers thread = .running → state.shared.errors thread = none
  brings : ∀ thread error, state.helpers thread = .signalling error →
    state.shared.errors thread = error
  told : ∀ thread ec, state.shared.errors thread = some ec →
    state.helpers thread = .signalling (some ec) ∨ some ec ∈ state.signalled
  known : ∀ ec, some ec ∈ state.signalled → ∃ thread, state.shared.errors thread = some ec
  caller : state.shared.errors .caller = none

theorem EventEffect.errors_goOn {state shared : ServerThreads}
    (heffect : EventEffect state (shared, none)) : shared.errors = state.errors := by
  cases heffect with
  | goOn _ _ _ => rfl

theorem AcceptEffect.errors_goOn {state shared : ServerThreads}
    (heffect : AcceptEffect state (shared, none)) : shared.errors = state.errors := by
  cases heffect <;> rfl

/-- How the body of a thread ends: without an error and without `signal_stop`, or with its error. -/
theorem ServerThreads.errors_leave {state shared : ServerThreads} {thread : ServerThread}
    {error : Option Nat} {ending : Ending Nat}
    (hleave : state.leave thread error = (shared, some ending)) :
    shared.errors = Function.update state.errors thread error ∧
      (ending.phase = .signalling error ∨ ending.phase = .left ∧ error = none) := by
  cases hleave
  cases error with
  | none => exact ⟨rfl, .inr ⟨rfl, rfl⟩⟩
  | some ec => exact ⟨rfl, .inl rfl⟩

theorem errors_work {thread : ServerThread} {input : ServerInput} {state shared : ServerThreads}
    (hwork : serverRun.work thread input state = some (shared, none)) :
    shared.errors = state.errors := by
  cases thread with
  | event =>
    cases input with
    | loop label ec => exact (eventEffect_of_step hwork).errors_goOn
    | _ => cases hwork
  | accept => exact (acceptEffect_of_step hwork).errors_goOn
  | caller => cases input <;> cases hwork

theorem errors_finish {thread : ServerThread} {input : ServerInput} {state shared : ServerThreads}
    {ending : Ending Nat} (hnone : state.errors thread = none)
    (hwork : serverRun.work thread input state = some (shared, some ending)) :
    ∃ error, (shared.errors = Function.update state.errors thread error ∧
      (ending.phase = .signalling error ∨ ending.phase = .left ∧ error = none)) ∧
        (thread = .caller → error = none) := by
  cases thread with
  | event =>
    cases input with
    | loop label ec =>
      have heffect : EventEffect state (shared, some ending) := eventEffect_of_step hwork
      generalize hresult : (shared, some ending) = result at heffect
      cases heffect with
      | goOn _ _ _ => cases hresult
      | leave _ _ _ =>
        have herrors := ServerThreads.errors_leave hresult.symm
        exact ⟨_, herrors, nofun⟩
    | _ => cases hwork
  | accept =>
    have heffect : AcceptEffect state (shared, some ending) := acceptEffect_of_step hwork
    generalize hresult : (shared, some ending) = result at heffect
    cases heffect with
    | leave _ _ =>
      have herrors := ServerThreads.errors_leave hresult.symm
      exact ⟨_, herrors, nofun⟩
    | _ => cases hresult
  | caller =>
    cases input with
    | call =>
      cases hwork
      refine ⟨none, ⟨?_, .inl rfl⟩, fun _ ↦ rfl⟩
      rw [← hnone, Function.update_eq_self]
    | _ => cases hwork

theorem errors_obey {state shared : ServerThreads} {order : ServerOrder}
    (hobey : state.obey order = some shared) : shared.errors = state.errors := by
  cases order with
  | callEvent =>
    dsimp only [ServerThreads.obey] at hobey
    split_ifs at hobey
    · obtain ⟨loop, -, rfl⟩ := Option.map_eq_some_iff.mp hobey
      rfl
    · cases hobey
      rfl
  | callAccept =>
    dsimp only [ServerThreads.obey] at hobey
    split_ifs at hobey
    all_goals
      cases hobey
      rfl
  | stopEvent =>
    obtain ⟨loop, -, rfl⟩ := Option.map_eq_some_iff.mp hobey
    rfl
  | _ =>
    cases hobey
    rfl

theorem errors_worker {state shared : ServerThreads} {input : ServerInput}
    (hstep : state.workerStep input = some shared) : shared.errors = state.errors := by
  unfold ServerThreads.workerStep at hstep
  split at hstep
  · obtain ⟨loop, -, rfl⟩ := Option.map_eq_some_iff.mp hstep
    rfl
  · obtain ⟨loop, -, rfl⟩ := Option.map_eq_some_iff.mp hstep
    rfl
  · cases hstep

namespace RunState

variable {state next : RunState}

/-- A step that leaves the threads where they are and the errors as they are. -/
theorem Ledger.of_same (hledger : state.Ledger) (hhelpers : next.helpers = state.helpers)
    (herrors : next.shared.errors = state.shared.errors)
    (hsignalled : next.signalled = state.signalled) : next.Ledger where
  running := by
    rw [hhelpers, herrors]
    exact hledger.running
  brings := by
    rw [hhelpers, herrors]
    exact hledger.brings
  told := by
    rw [hhelpers, herrors, hsignalled]
    exact hledger.told
  known := by
    rw [herrors, hsignalled]
    exact hledger.known
  caller := by
    rw [herrors]
    exact hledger.caller

/-- A thread leaves its body with an error or without one. -/
theorem Ledger.finish (hledger : state.Ledger) {thread : ServerThread} {shared : ServerThreads}
    {phase : HelperPhase Nat} {error : Option Nat} (hrunning : state.helpers thread = .running)
    (herrors : shared.errors = Function.update state.shared.errors thread error)
    (hphase : phase = .signalling error ∨ phase = .left ∧ error = none)
    (hcaller : thread = .caller → error = none) :
    Ledger (({ state with shared := shared } : RunState).move thread phase) := by
  have hself : shared.errors thread = error := by rw [herrors, Function.update_self]
  have hothers : ∀ other, other ≠ thread → shared.errors other = state.shared.errors other :=
    fun other hother ↦ by rw [herrors, Function.update_of_ne hother]
  have hmoved : (({ state with shared := shared } : RunState).move thread phase).helpers thread =
      phase := Supervised.helpers_move_self _ _
  have hkept : ∀ other, other ≠ thread →
      (({ state with shared := shared } : RunState).move thread phase).helpers other =
        state.helpers other := fun other hother ↦ Supervised.helpers_move_of_ne hother _
  refine ⟨fun other hother ↦ ?_, fun other brought hother ↦ ?_, fun other ec hother ↦ ?_,
    fun ec hmem ↦ ?_, ?_⟩
  · by_cases hsame : other = thread
    · rw [hsame, hmoved] at hother
      rcases hphase with hphase | ⟨hphase, -⟩
      · exact absurd (hphase.symm.trans hother) nofun
      · exact absurd (hphase.symm.trans hother) nofun
    · rw [hkept other hsame] at hother
      exact (hothers other hsame).trans (hledger.running other hother)
  · by_cases hsame : other = thread
    · rw [hsame, hmoved] at hother
      rcases hphase with hphase | ⟨hphase, -⟩
      · rw [hphase] at hother
        rw [hsame]
        exact hself.trans (HelperPhase.signalling.inj hother)
      · exact absurd (hphase.symm.trans hother) nofun
    · rw [hkept other hsame] at hother
      exact (hothers other hsame).trans (hledger.brings other brought hother)
  · change shared.errors other = some ec at hother
    by_cases hsame : other = thread
    · rw [hsame, hself] at hother
      rcases hphase with hphase | ⟨-, herror⟩
      · rw [hsame, hmoved, hphase, hother]
        exact .inl rfl
      · exact absurd (herror.symm.trans hother) nofun
    · rw [hkept other hsame]
      exact hledger.told other ec ((hothers other hsame).symm.trans hother)
  · obtain ⟨other, hother⟩ := hledger.known ec hmem
    refine ⟨other, (hothers other fun hsame ↦ ?_).trans hother⟩
    rw [hsame, hledger.running thread hrunning] at hother
    cases hother
  · show shared.errors .caller = none
    by_cases hsame : ServerThread.caller = thread
    · rw [hsame, hself]
      exact hcaller hsame.symm
    · exact (hothers .caller hsame).trans hledger.caller

/-- The lock region of `signal_stop`. -/
theorem Ledger.signal (hledger : state.Ledger) {thread : ServerThread} {error : Option Nat}
    (hsignalling : state.helpers thread = .signalling error) :
    Ledger ((state.signalStop error).move thread .notifying) := by
  have hkept : ∀ other phase, phase ≠ .notifying →
      ((state.signalStop error).move thread .notifying).helpers other = phase →
        state.helpers other = phase := by
    intro other phase hphase hother
    by_cases hsame : other = thread
    · rw [hsame, Supervised.helpers_move_self] at hother
      exact absurd hother.symm hphase
    · rwa [Supervised.helpers_move_of_ne hsame] at hother
  refine ⟨fun other hother ↦ hledger.running other (hkept _ _ nofun hother),
    fun other brought hother ↦ hledger.brings other brought (hkept _ _ nofun hother),
    fun other ec hother ↦ ?_, fun ec hmem ↦ ?_, hledger.caller⟩
  · show _ ∨ some ec ∈ state.signalled ++ [error]
    rcases hledger.told other ec hother with hbefore | hmem
    · by_cases hsame : other = thread
      · rw [hsame, hsignalling] at hbefore
        rw [HelperPhase.signalling.inj hbefore]
        exact .inr (List.mem_append_right _ (List.mem_singleton_self _))
      · exact .inl ((Supervised.helpers_move_of_ne hsame _).trans hbefore)
    · exact .inr (List.mem_append_left _ hmem)
  · change some ec ∈ state.signalled ++ [error] at hmem
    rcases List.mem_append.mp hmem with hbefore | hnow
    · exact hledger.known ec hbefore
    · refine ⟨thread, (hledger.brings thread error hsignalling).trans ?_⟩
      exact (List.mem_singleton.mp hnow).symm

/-- A thread that brings nothing leaves. -/
theorem Ledger.depart (hledger : state.Ledger) {thread : ServerThread}
    (hquiet : ∀ error, state.helpers thread ≠ .signalling error) :
    Ledger (state.move thread .left) := by
  have hkept : ∀ other phase, phase ≠ .left →
      (state.move thread .left).helpers other = phase → state.helpers other = phase := by
    intro other phase hphase hother
    by_cases hsame : other = thread
    · rw [hsame, Supervised.helpers_move_self] at hother
      exact absurd hother.symm hphase
    · rwa [Supervised.helpers_move_of_ne hsame] at hother
  refine ⟨fun other hother ↦ hledger.running other (hkept _ _ nofun hother),
    fun other error hother ↦ hledger.brings other error (hkept _ _ nofun hother),
    fun other ec hother ↦ ?_, hledger.known, hledger.caller⟩
  refine (hledger.told other ec hother).imp_left fun hbefore ↦ ?_
  have hsame : other ≠ thread := fun hsame ↦ hquiet _ (hsame ▸ hbefore)
  exact (Supervised.helpers_move_of_ne hsame _).trans hbefore

theorem Ledger.step (hledger : state.Ledger)
    {label : SupervisionLabel ServerThread ServerInput}
    (hstep : SupervisedStep serverRun state label next) : next.Ledger := by
  cases hstep with
  | goOn _ hwork => exact hledger.of_same rfl (errors_work hwork) rfl
  | finish hrunning hwork =>
    obtain ⟨error, ⟨herrors, hphase⟩, hcaller⟩ :=
      errors_finish (hledger.running _ hrunning) hwork
    exact hledger.finish hrunning herrors hphase hcaller
  | signal hsignalling _ => exact hledger.signal hsignalling
  | notify hnotifying =>
    have hsame : Ledger { state with phase := state.phase.notified } :=
      hledger.of_same rfl rfl rfl
    refine hsame.depart fun error hsignalling ↦ ?_
    exact absurd (hnotifying.symm.trans hsignalling) nofun
  | perform _ hperformed =>
    cases hperformed with
    | order hobey => exact hledger.of_same rfl (errors_obey hobey) rfl
    | @retire thread hidle =>
      have hleft : Ledger (state.move thread .left) := by
        refine hledger.depart fun error hsignalling ↦ ?_
        rcases hidle with hidle | hidle
        · exact absurd (hidle.symm.trans hsignalling) nofun
        · exact absurd (hidle.symm.trans hsignalling) nofun
      exact hleft.of_same rfl rfl rfl
    | _ => exact hledger.of_same rfl rfl rfl
  | outside hinput => exact hledger.of_same rfl (errors_worker hinput) rfl
  | _ => exact hledger.of_same rfl rfl rfl

theorem ledger_of_reachable (hreach : serverRun.system.Reachable state) : state.Ledger := by
  have hstart : Ledger serverRun.system.start := ⟨fun _ _ ↦ rfl, nofun, nofun, nofun, rfl⟩
  exact hreach.induction hstart fun _ _ _ _ hledger _ hstep ↦
    hledger.step (supervisedStep_of_step hstep)

end RunState

/-! ### Results -/

/-- What `run` evaluates before its answer waits for both threads. -/
theorem serverRun_reports : serverRun.Reports
    [.order .stopEvent, .order .callEvent, .order .stopAccept, .order .callAccept,
      .order .wakeRegistry, .order .wakeListener, .join .event, .join .accept]
    [.retire .caller] where
  split := rfl
  first := by simp
  awaited thread input _ _ _ hwork := by
    cases thread with
    | event => exact .inl (by simp)
    | accept => exact .inl (by simp)
    | caller => cases input <;> cases hwork

/-- The answer of a server. When `run` has it, the event loop and the acceptor have left, and it is
the first error that one of them brought: no error exactly when neither had one. -/
theorem server_answer (state : RunState) (hreach : serverRun.system.Reachable state)
    (answer : Option Nat) (hanswer : state.answer = some answer) :
    state.shared.loop.phase = .left ∧ state.shared.acceptor = .left ∧
      answer = state.signalled.reduceOption.head? ∧
      (∀ ec, answer = some ec → ∃ thread, state.shared.errors thread = some ec) ∧
      (answer = none ↔ ∀ thread, state.shared.errors thread = none) := by
  have hserved := RunState.served_of_reachable hreach
  have hledger := RunState.ledger_of_reachable hreach
  obtain ⟨hfirst, hleft⟩ := Supervised.answer_eq serverRun_reports hreach hanswer
  have hevent : state.helpers .event = .left := hleft .event (.inl (by simp))
  have haccept : state.helpers .accept = .left := hleft .accept (.inl (by simp))
  have hbrought : ∀ ec, answer = some ec → some ec ∈ state.signalled := by
    intro ec hsome
    rw [hsome] at hfirst
    exact List.reduceOption_mem_iff.mp (List.mem_of_mem_head? hfirst.symm)
  refine ⟨?_, ?_, hfirst, fun ec hsome ↦ hledger.known ec (hbrought ec hsome), ?_⟩
  · by_contra hrunning
    exact absurd (hevent.symm.trans (hserved.event.mpr hrunning)) nofun
  · by_contra hrunning
    exact absurd (haccept.symm.trans (hserved.accept.mpr hrunning)) nofun
  · constructor
    · intro hok thread
      by_contra herror
      obtain ⟨ec, hec⟩ := Option.ne_none_iff_exists'.mp herror
      rw [hok] at hfirst
      have hempty : state.signalled.reduceOption = [] := List.head?_eq_none_iff.mp hfirst.symm
      have hmem : some ec ∈ state.signalled := by
        refine (hledger.told thread ec hec).resolve_left fun hsignalling ↦ ?_
        cases thread with
        | event => exact absurd (hevent.symm.trans hsignalling) nofun
        | accept => exact absurd (haccept.symm.trans hsignalling) nofun
        | caller => exact absurd (hledger.caller.symm.trans hec) nofun
      have hlisted := List.reduceOption_mem_iff.mpr hmem
      rw [hempty] at hlisted
      exact absurd hlisted List.not_mem_nil
    · intro hnone
      cases answer with
      | none => rfl
      | some ec =>
        obtain ⟨thread, hthread⟩ := hledger.known ec (hbrought ec rfl)
        rw [hnone thread] at hthread
        cases hthread

/-- The acceptor fails first and the event loop behind it. -/
def bothFail : List (SupervisionLabel ServerThread ServerInput) :=
  [.work .accept .construct, .work .accept .check, .check, .park,
    .work .event (.loop .construct 0), .work .event (.loop .check 0),
    .work .accept (.waitFails 5), .work .event (.loop .waitFails 7), .signal .accept,
    .notify .accept, .signal .event, .notify .event, .check, .perform, .perform, .perform, .perform,
    .perform, .perform, .perform, .perform, .perform]

theorem server_answer_bothFail : ∃ state : RunState, serverRun.system.Reachable state ∧
    state.shared.errors .event = some 7 ∧ state.signalled.reduceOption.head? = some 5 := by
  have hrun : ((serverRun.system.run serverRun.system.start bothFail).map fun state ↦
      (state.answer, state.shared.errors .event)) = some (some (some 5), some 7) := by
    decide +kernel
  obtain ⟨state, hstate, hseen⟩ := Option.map_eq_some_iff.mp hrun
  rw [Prod.mk.injEq] at hseen
  have hreach : serverRun.system.Reachable state := .of_run hstate
  obtain ⟨-, -, hfirst, -, -⟩ := server_answer state hreach (some 5) hseen.1
  exact ⟨state, hreach, hseen.2, hfirst.symm⟩

/-- Where a server that was asked to stop comes to its end. From every state in which the stop was
requested, a run in which nothing comes from outside, no worker pushes another command and no
callback of an event already returned does, is not longer than the measure of that state, and a
state in which nothing can happen any more is one in which `run` has returned. -/
theorem server_returns (state : RunState) (hreach : serverRun.system.Reachable state)
    (hstop : state.stopRequested = true)
    (labels : List (SupervisionLabel ServerThread ServerInput))
    (hinternal : ∀ label ∈ labels, label.Internal ServerInput.Prompt ServerInput.Late)
    (last : RunState) (hrun : serverRun.system.run state labels = some last) :
    labels.length ≤ state.measure serverRun ServerThreads.size 12 ∧
      (last.Blocked → last.Returned) := by
  refine ⟨Supervised.run_length_le serverRun_shrinks hinternal hrun, fun hblocked ↦ ?_⟩
  exact RunState.returned_of_blocked hblocked (hreach.run_reachable hrun)
    (Supervised.stopRequested_run hstop hrun)

/-- The caller stops a server whose two loops wait. -/
theorem server_returns_waiting : ∃ state last : RunState,
    serverRun.system.Reachable state ∧ state.stopRequested = true ∧ last.answer = some none ∧
      (last.Blocked → last.Returned) := by
  let before : List (SupervisionLabel ServerThread ServerInput) :=
    [.work .event (.loop .construct 0), .work .event (.loop .check 0), .work .accept .construct,
      .work .accept .check, .check, .park, .work .caller .call, .signal .caller]
  let labels : List (SupervisionLabel ServerThread ServerInput) :=
    [.notify .caller, .check, .perform, .perform, .work .event (.loop (.epollWait false) 0),
      .work .event (.loop .read 0), .work .event (.loop .read 0), .work .event (.loop .swap 0),
      .work .event (.loop .handle 0), .work .event (.loop .recheck 0), .perform, .perform,
      .work .accept (.acceptWait [.wakeup]), .work .accept .scan, .work .accept .read,
      .work .accept .read, .work .accept .scan, .work .accept .check, .perform, .perform, .perform,
      .perform, .perform, .perform]
  have hbefore : ((serverRun.system.run serverRun.system.start before).map fun state ↦
      (state.stopRequested, (serverRun.system.run state labels).map fun last ↦ last.answer)) =
        some (true, some (some none)) := by
    decide +kernel
  obtain ⟨state, hstate, hseen⟩ := Option.map_eq_some_iff.mp hbefore
  rw [Prod.mk.injEq] at hseen
  obtain ⟨last, hlast, hanswer⟩ := Option.map_eq_some_iff.mp hseen.2
  have hreach : serverRun.system.Reachable state := .of_run hstate
  have hinternal : ∀ label ∈ labels,
      label.Internal ServerInput.Prompt ServerInput.Late := by
    simp [labels, SupervisionLabel.Internal, ServerInput.Prompt, WakeupLabel.Prompt]
  obtain ⟨-, hreturns⟩ := server_returns state hreach hseen.1 labels hinternal last hlast
  exact ⟨state, last, hreach, hseen.1, hanswer, hreturns⟩

end ChatServer
