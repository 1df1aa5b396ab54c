import ChatServer.Server.ServerRun

/-!
# How the stop reaches the threads of a server

`EventEffect` and `AcceptEffect` are the steps of the event loop and of the acceptor as what they do
to what the threads share.

`Served` is what these steps and the duties of `epoll_server::run` keep: a thread is in its body
until it has left its loop, and no loop waits behind a stop that was requested, since an order has
written its eventfd or the thread of `run` is about to.
-/

set_option autoImplicit false
set_option relaxedAutoImplicit false

namespace ChatServer

/-! ### What the steps of the event loop leave -/

namespace WakeupState

variable {Thread : Type} [DecidableEq Thread] {state next : WakeupState Thread}

/-- A step of the event loop makes no other thread wake it up and requests no stop. -/
theorem ofLoop_step {label : WakeupLabel Thread} (hloop : label.OfLoop = true)
    (hstep : state.step label = some next) : next.waking = state.waking ∧
      next.stopRequested = state.stopRequested ∧ state.phase ≠ .left := by
  cases label with
  | handle =>
    simp only [step] at hstep
    split at hstep
    · next hphase =>
      rw [← Option.some.inj hstep]
      exact ⟨rfl, rfl, by simp [hphase]⟩
    · next hphase =>
      rw [← Option.some.inj hstep]
      exact ⟨rfl, rfl, by simp [hphase]⟩
    · cases hstep
  | epollWait othersReady =>
    simp only [step] at hstep
    split_ifs at hstep with hready
    rw [← Option.some.inj hstep]
    exact ⟨rfl, rfl, by simp [hready.1]⟩
  | read =>
    simp only [step] at hstep
    split_ifs at hstep with hphase hcount
    all_goals
      rw [← Option.some.inj hstep]
      exact ⟨rfl, rfl, by simp [hphase]⟩
  | push _ _ => cases hloop
  | requestStop _ => cases hloop
  | write _ => cases hloop
  | wakeup => cases hloop
  | _ =>
    simp only [step] at hstep
    split_ifs at hstep with hphase
    all_goals
      rw [← Option.some.inj hstep]
      exact ⟨rfl, rfl, by simp [hphase]⟩

theorem push_step {thread : Thread} {command : RegistryCommand}
    (hstep : state.step (.push thread command) = some next) :
    thread ∉ state.waking ∧
      next = { state.push command with waking := insert thread state.waking } := by
  simp only [step] at hstep
  split_ifs at hstep with hwaking
  exact ⟨hwaking, (Option.some.inj hstep).symm⟩

theorem write_step {thread : Thread} (hstep : state.step (.write thread) = some next) :
    thread ∈ state.waking ∧
      next = { state with
        count := requestWakeup state.count, waking := state.waking.erase thread } := by
  simp only [step] at hstep
  split_ifs at hstep with hwaking
  exact ⟨hwaking, (Option.some.inj hstep).symm⟩

theorem requestStop_step {thread : Thread} (hstep : state.step (.requestStop thread) = some next) :
    thread ∉ state.waking ∧ next.phase = state.phase ∧ next.stopRequested = true ∧
      next.count = state.count ∧ next.cmdQ = state.cmdQ ∧
      (next.waking = state.waking ∨ next.waking = insert thread state.waking) := by
  simp only [step] at hstep
  split_ifs at hstep with hwaking hstop hphase
  · rw [← Option.some.inj hstep]
    exact ⟨hwaking, rfl, hstop, rfl, rfl, .inl rfl⟩
  · rw [← Option.some.inj hstep]
    exact ⟨hwaking, rfl, rfl, rfl, rfl, .inl rfl⟩
  · rw [← Option.some.inj hstep]
    exact ⟨hwaking, rfl, rfl, rfl, rfl, .inr rfl⟩

end WakeupState

/-! ### What the steps of the two threads do -/

/-- A step of the event loop thread. -/
inductive EventEffect (state : ServerThreads) : ServerThreads × Option (Ending Nat) → Prop
  | goOn {label : WakeupLabel Waker} {loop : WakeupState Waker} (hloop : label.OfLoop = true)
      (hstep : state.loop.step label = some loop) (hphase : loop.phase ≠ .left) :
      EventEffect state ({ state with loop := loop }, none)
  | leave {label : WakeupLabel Waker} {loop : WakeupState Waker} {error : Option Nat}
      (hloop : label.OfLoop = true) (hstep : state.loop.step label = some loop)
      (hphase : loop.phase = .left) :
      EventEffect state (({ state with loop := loop } : ServerThreads).leave .event error)

/-- A step of the acceptor thread. -/
inductive AcceptEffect (state : ServerThreads) : ServerThreads × Option (Ending Nat) → Prop
  | move {acceptor : AcceptPhase} {count : Nat} (hrunning : state.acceptor ≠ .left)
      (hnext : acceptor ≠ .left) (hbefore : ∀ rest, state.acceptor ≠ .waking rest)
      (hafter : ∀ rest, acceptor ≠ .waking rest)
      (hwaiting : acceptor = .waiting → state.acceptStop = false) :
      AcceptEffect state ({ state with acceptor := acceptor, acceptCount := count }, none)
  | register {fd : Int} {rest : List AcceptEvent} {command : RegistryCommand}
      {loop : WakeupState Waker} (hphase : state.acceptor = .registering fd rest)
      (hstep : state.loop.step (.push .acceptor command) = some loop) :
      AcceptEffect state ({ state with loop := loop, acceptor := .waking rest }, none)
  | write {rest : List AcceptEvent} {loop : WakeupState Waker}
      (hphase : state.acceptor = .waking rest)
      (hstep : state.loop.step (.write .acceptor) = some loop) :
      AcceptEffect state ({ state with loop := loop, acceptor := .accepting rest }, none)
  | leave {error : Option Nat} (hrunning : state.acceptor ≠ .left)
      (hbefore : ∀ rest, state.acceptor ≠ .waking rest) :
      AcceptEffect state
        (({ state with acceptor := .left } : ServerThreads).leave .accept error)

section Effects

variable {state : ServerThreads} {result : ServerThreads × Option (Ending Nat)}

theorem eventEffect_of_step {label : WakeupLabel Waker} {ec : Nat}
    (hstep : state.eventStep label ec = some result) : EventEffect state result := by
  unfold ServerThreads.eventStep at hstep
  split_ifs at hstep with hloop
  obtain ⟨loop, hnext, rfl⟩ := Option.map_eq_some_iff.mp hstep
  dsimp only
  split_ifs with hphase
  · exact .leave hloop hnext hphase
  · exact .goOn hloop hnext hphase

theorem acceptEffect_of_step {input : ServerInput}
    (hstep : state.acceptStep input = some result) : AcceptEffect state result := by
  cases input with
  | construct =>
    dsimp only [ServerThreads.acceptStep] at hstep
    split_ifs at hstep with hphase
    all_goals
      cases hstep
      refine .move ?_ nofun (fun _ ↦ ?_) (fun _ ↦ nofun) nofun <;> rw [hphase] <;> nofun
  | check =>
    dsimp only [ServerThreads.acceptStep] at hstep
    split_ifs at hstep with hphase hstop
    · cases hstep
      refine .leave ?_ fun _ ↦ ?_ <;> rw [hphase] <;> nofun
    · cases hstep
      refine .move ?_ nofun (fun _ ↦ ?_) (fun _ ↦ nofun)
        fun _ ↦ Bool.eq_false_of_not_eq_true hstop <;> rw [hphase] <;> nofun
  | acceptWait events =>
    dsimp only [ServerThreads.acceptStep] at hstep
    split_ifs at hstep with hready
    cases hstep
    refine .move ?_ nofun (fun _ ↦ ?_) (fun _ ↦ nofun) nofun <;> rw [hready.1] <;> nofun
  | interrupted =>
    dsimp only [ServerThreads.acceptStep] at hstep
    split_ifs at hstep with hphase
    cases hstep
    refine .move ?_ nofun (fun _ ↦ ?_) (fun _ ↦ nofun) nofun <;> rw [hphase] <;> nofun
  | waitFails ec =>
    dsimp only [ServerThreads.acceptStep] at hstep
    split_ifs at hstep with hphase
    cases hstep
    refine .leave ?_ fun _ ↦ ?_ <;> rw [hphase] <;> nofun
  | scan =>
    dsimp only [ServerThreads.acceptStep] at hstep
    split at hstep
    · next hphase =>
      cases hstep
      refine .move ?_ nofun (fun _ ↦ ?_) (fun _ ↦ nofun) nofun <;> rw [hphase] <;> nofun
    · next hphase =>
      cases hstep
      refine .move ?_ nofun (fun _ ↦ ?_) (fun _ ↦ nofun) nofun <;> rw [hphase] <;> nofun
    · next hphase =>
      cases hstep
      refine .leave ?_ fun _ ↦ ?_ <;> rw [hphase] <;> nofun
    · next hphase =>
      cases hstep
      refine .move ?_ nofun (fun _ ↦ ?_) (fun _ ↦ nofun) nofun <;> rw [hphase] <;> nofun
    · cases hstep
  | read =>
    dsimp only [ServerThreads.acceptStep] at hstep
    split at hstep
    · next rest hphase =>
      split_ifs at hstep
      · cases hstep
        refine .move ?_ ?_ (fun _ ↦ ?_) (fun _ ↦ ?_) fun hwaiting ↦ ?_
        case refine_5 =>
          rw [hphase] at hwaiting
          cases hwaiting
        all_goals rw [hphase]; nofun
      · cases hstep
        refine .move ?_ nofun (fun _ ↦ ?_) (fun _ ↦ nofun) nofun <;> rw [hphase] <;> nofun
    · cases hstep
  | accept outcome =>
    dsimp only [ServerThreads.acceptStep] at hstep
    split at hstep
    · next rest hphase =>
      split at hstep
      · cases hstep
        refine .move ?_ nofun (fun _ ↦ ?_) (fun _ ↦ nofun) nofun <;> rw [hphase] <;> nofun
      · split_ifs at hstep
        · cases hstep
          refine .move ?_ ?_ (fun _ ↦ ?_) (fun _ ↦ ?_) fun hwaiting ↦ ?_
          case refine_5 =>
            rw [hphase] at hwaiting
            cases hwaiting
          all_goals rw [hphase]; nofun
        · cases hstep
          refine .move ?_ nofun (fun _ ↦ ?_) (fun _ ↦ nofun) nofun <;> rw [hphase] <;> nofun
    · cases hstep
  | register =>
    dsimp only [ServerThreads.acceptStep] at hstep
    split at hstep
    · next fd rest hphase =>
      obtain ⟨loop, hnext, rfl⟩ := Option.map_eq_some_iff.mp hstep
      exact .register hphase hnext
    · cases hstep
  | write =>
    dsimp only [ServerThreads.acceptStep] at hstep
    split at hstep
    · next rest hphase =>
      obtain ⟨loop, hnext, rfl⟩ := Option.map_eq_some_iff.mp hstep
      exact .write hphase hnext
    · cases hstep
  | _ => cases hstep

end Effects

/-! ### What holds in every state of `run` -/

/-- A state of `epoll_server::run`. -/
abbrev RunState : Type :=
  Supervised ServerThread ServerThreads Nat ServerOrder

/-- A thread is in its body until it has left its loop, a thread that is about to write an eventfd
is where it does so, and a stop that was requested wakes up the thread that waits. -/
structure RunState.Served (state : RunState) : Prop where
  heard : state.shared.loop.Heard
  event : state.helpers .event = .running ↔ state.shared.loop.phase ≠ .left
  accept : state.helpers .accept = .running ↔ state.shared.acceptor ≠ .left
  pushing : .acceptor ∈ state.shared.loop.waking ↔ ∃ rest, state.shared.acceptor = .waking rest
  calling : .main ∈ state.shared.loop.waking →
    ∃ rest, state.phase = .performing (.order .callEvent :: rest)
  callback : state.shared.acceptWaking = true →
    ∃ rest, state.phase = .performing (.order .callAccept :: rest)
  woken : state.shared.acceptor = .waiting → state.shared.acceptStop = true →
    0 < state.shared.acceptCount ∨ state.shared.acceptWaking = true
  eventAsked : ∀ rest, state.phase = .performing rest →
    .order .stopEvent ∈ rest ∨ state.shared.loop.stopRequested = true
  acceptAsked : ∀ rest, state.phase = .performing rest →
    .order .stopAccept ∈ rest ∨ state.shared.acceptStop = true

section Duties

variable {done rest : List (Duty ServerThread ServerOrder)}

theorem rest_of_stopEvent (hsplit : serverDuties = done ++ .order .stopEvent :: rest) :
    ∃ later, rest = .order .callEvent :: later := by
  rcases done with _ | ⟨_, _ | ⟨_, _ | ⟨_, _ | ⟨_, _ | ⟨_, _ | ⟨_, _ | ⟨_, _ | ⟨_, _ | ⟨_, _ |
    ⟨_, done⟩⟩⟩⟩⟩⟩⟩⟩⟩⟩ <;> simp [serverDuties] at hsplit
  exact ⟨_, hsplit.symm⟩

theorem rest_of_stopAccept (hsplit : serverDuties = done ++ .order .stopAccept :: rest) :
    ∃ later, rest = .order .callAccept :: later := by
  rcases done with _ | ⟨_, _ | ⟨_, _ | ⟨_, _ | ⟨_, _ | ⟨_, _ | ⟨_, _ | ⟨_, _ | ⟨_, _ | ⟨_, _ |
    ⟨_, done⟩⟩⟩⟩⟩⟩⟩⟩⟩⟩ <;> simp [serverDuties] at hsplit
  exact ⟨_, hsplit.2.2.symm⟩

/-- No order is left when the threads are joined. -/
theorem order_notMem_of_join {thread : ServerThread}
    (hsplit : serverDuties = done ++ .join thread :: rest) (order : ServerOrder) :
    .order order ∉ Duty.join thread :: rest := by
  rcases done with _ | ⟨_, _ | ⟨_, _ | ⟨_, _ | ⟨_, _ | ⟨_, _ | ⟨_, _ | ⟨_, _ | ⟨_, _ | ⟨_, _ |
    ⟨_, done⟩⟩⟩⟩⟩⟩⟩⟩⟩⟩ <;> simp [serverDuties] at hsplit
  · obtain ⟨-, -, -, -, -, -, -, rfl⟩ := hsplit
    simp
  · obtain ⟨-, -, -, -, -, -, -, -, rfl⟩ := hsplit
    simp

theorem retire_caller {thread : ServerThread}
    (hsplit : serverDuties = done ++ .retire thread :: rest) : thread = .caller := by
  have hmem : Duty.retire thread ∈ serverDuties :=
    hsplit ▸ List.mem_append_right _ List.mem_cons_self
  simpa [serverDuties] using hmem

end Duties

namespace RunState

variable {state next : RunState}

theorem served_start : Served serverRun.system.start where
  heard := WakeupState.heard_start
  event := ⟨fun _ ↦ nofun, fun _ ↦ rfl⟩
  accept := ⟨fun _ ↦ nofun, fun _ ↦ rfl⟩
  pushing := ⟨nofun, fun ⟨_, hrest⟩ ↦ nomatch hrest⟩
  calling := nofun
  callback := nofun
  woken := nofun
  eventAsked := nofun
  acceptAsked := nofun

/-- A step in the body of a thread. -/
theorem Served.of_work (hserved : state.Served) (hphase : next.phase = state.phase)
    (hheard : next.shared.loop.Heard)
    (hevent : next.helpers .event = .running ↔ next.shared.loop.phase ≠ .left)
    (haccept : next.helpers .accept = .running ↔ next.shared.acceptor ≠ .left)
    (hpushing : .acceptor ∈ next.shared.loop.waking ↔ ∃ rest, next.shared.acceptor = .waking rest)
    (hmain : .main ∈ next.shared.loop.waking → .main ∈ state.shared.loop.waking)
    (hstop : next.shared.loop.stopRequested = state.shared.loop.stopRequested)
    (hcallback : next.shared.acceptWaking = state.shared.acceptWaking)
    (hacceptStop : next.shared.acceptStop = state.shared.acceptStop)
    (hwoken : next.shared.acceptor = .waiting → next.shared.acceptStop = true →
      0 < next.shared.acceptCount ∨ next.shared.acceptWaking = true) : next.Served where
  heard := hheard
  event := hevent
  accept := haccept
  pushing := hpushing
  calling hwaking := by
    rw [hphase]
    exact hserved.calling (hmain hwaking)
  callback hwaking := by
    rw [hphase]
    exact hserved.callback (hcallback ▸ hwaking)
  woken := hwoken
  eventAsked rest hrest := by
    rw [hstop]
    exact hserved.eventAsked rest (hphase ▸ hrest)
  acceptAsked rest hrest := by
    rw [hacceptStop]
    exact hserved.acceptAsked rest (hphase ▸ hrest)

/-- A step that leaves what the threads share as it is. -/
theorem Served.of_shared (hserved : state.Served) (hshared : next.shared = state.shared)
    (hevent : next.helpers .event = .running ↔ state.helpers .event = .running)
    (haccept : next.helpers .accept = .running ↔ state.helpers .accept = .running)
    (hkept : ∀ rest, state.phase = .performing rest → next.phase = .performing rest)
    (hphase : ∀ rest, next.phase = .performing rest →
      state.phase = .performing rest ∨ rest = serverDuties) : next.Served where
  heard := hshared ▸ hserved.heard
  event := by rw [hevent, hshared, hserved.event]
  accept := by rw [haccept, hshared, hserved.accept]
  pushing := hshared ▸ hserved.pushing
  calling hwaking := by
    obtain ⟨rest, hrest⟩ := hserved.calling (hshared ▸ hwaking)
    exact ⟨rest, hkept _ hrest⟩
  callback hwaking := by
    obtain ⟨rest, hrest⟩ := hserved.callback (hshared ▸ hwaking)
    exact ⟨rest, hkept _ hrest⟩
  woken := hshared ▸ hserved.woken
  eventAsked rest hrest := by
    rw [hshared]
    rcases hphase rest hrest with hbefore | rfl
    · exact hserved.eventAsked rest hbefore
    · exact .inl (by simp [serverDuties])
  acceptAsked rest hrest := by
    rw [hshared]
    rcases hphase rest hrest with hbefore | rfl
    · exact hserved.acceptAsked rest hbefore
    · exact .inl (by simp [serverDuties])

/-- A thread that is not in its body goes on outside of it. -/
theorem running_move {thread other : ServerThread} {phase : HelperPhase Nat}
    (hbefore : state.helpers thread ≠ .running) (hafter : phase ≠ .running) :
    (state.move thread phase).helpers other = .running ↔ state.helpers other = .running := by
  by_cases hsame : other = thread
  · rw [hsame, Supervised.helpers_move_self]
    exact ⟨fun hrunning ↦ absurd hrunning hafter, fun hrunning ↦ absurd hrunning hbefore⟩
  · rw [Supervised.helpers_move_of_ne hsame]

/-- The body of the event loop thread. -/
theorem Served.event_goOn (hserved : state.Served) {shared : ServerThreads}
    (heffect : EventEffect state.shared (shared, none)) :
    Served { state with shared := shared } := by
  cases heffect with
  | goOn hloop hstep hphase =>
    obtain ⟨hwaking, hstop, hrunning⟩ := WakeupState.ofLoop_step hloop hstep
    refine hserved.of_work rfl (hserved.heard.step hstep) ?_ hserved.accept ?_ ?_ hstop rfl rfl
      hserved.woken
    · exact ⟨fun _ ↦ hphase, fun _ ↦ hserved.event.mpr hrunning⟩
    · dsimp only
      rw [hwaking]
      exact hserved.pushing
    · exact fun hmem ↦ hwaking ▸ hmem

theorem Served.event_leave (hserved : state.Served) {shared : ServerThreads}
    {ending : Ending Nat} (heffect : EventEffect state.shared (shared, some ending)) :
    Served (({ state with shared := shared } : RunState).move .event ending.phase) := by
  have hgone : ending.phase ≠ .running := by
    cases ending <;> nofun
  have hother : (({ state with shared := shared } : RunState).move .event
      ending.phase).helpers .accept = state.helpers .accept :=
    Supervised.helpers_move_of_ne (by decide) _
  have hself : (({ state with shared := shared } : RunState).move .event
      ending.phase).helpers .event = ending.phase := Supervised.helpers_move_self _ _
  cases heffect with
  | leave hloop hstep hphase =>
    obtain ⟨hwaking, hstop, -⟩ := WakeupState.ofLoop_step hloop hstep
    refine hserved.of_work rfl (hserved.heard.step hstep) ?_ ?_ ?_ ?_ hstop rfl rfl hserved.woken
    · rw [hself]
      exact ⟨fun hrunning ↦ absurd hrunning hgone, fun hnot ↦ absurd hphase hnot⟩
    · rw [hother]
      exact hserved.accept
    · have hpushing := hserved.pushing
      rw [← hwaking] at hpushing
      exact hpushing
    · exact fun hmem ↦ hwaking ▸ hmem

/-- The body of the acceptor thread. -/
theorem Served.accept_goOn (hserved : state.Served) {shared : ServerThreads}
    (heffect : AcceptEffect state.shared (shared, none)) :
    Served { state with shared := shared } := by
  cases heffect with
  | move hrunning hnext hbefore hafter hwaiting =>
    refine hserved.of_work rfl hserved.heard hserved.event ?_ ?_ id rfl rfl rfl ?_
    · exact ⟨fun _ ↦ hnext, fun _ ↦ hserved.accept.mpr hrunning⟩
    · refine hserved.pushing.trans ⟨?_, ?_⟩
      · rintro ⟨rest, hrest⟩
        exact absurd hrest (hbefore rest)
      · rintro ⟨rest, hrest⟩
        exact absurd hrest (hafter rest)
    · exact fun hnow hasked ↦
        absurd ((hwaiting hnow).symm.trans hasked) Bool.false_ne_true
  | register hphase hstep =>
    obtain ⟨-, rfl⟩ := WakeupState.push_step hstep
    refine hserved.of_work rfl (hserved.heard.step hstep) hserved.event ?_ ?_ ?_ rfl rfl rfl nofun
    · exact ⟨fun _ ↦ nofun, fun _ ↦ hserved.accept.mpr (by rw [hphase]; nofun)⟩
    · exact ⟨fun _ ↦ ⟨_, rfl⟩, fun _ ↦ Finset.mem_insert_self _ _⟩
    · exact fun hmem ↦ Finset.mem_of_mem_insert_of_ne hmem (by decide)
  | write hphase hstep =>
    obtain ⟨-, rfl⟩ := WakeupState.write_step hstep
    refine hserved.of_work rfl (hserved.heard.step hstep) hserved.event ?_ ?_ ?_ rfl rfl rfl nofun
    · exact ⟨fun _ ↦ nofun, fun _ ↦ hserved.accept.mpr (by rw [hphase]; nofun)⟩
    · exact ⟨fun hmem ↦ absurd hmem (Finset.notMem_erase _ _), fun ⟨_, hrest⟩ ↦ nomatch hrest⟩
    · exact Finset.mem_of_mem_erase

theorem Served.accept_leave (hserved : state.Served) {shared : ServerThreads}
    {ending : Ending Nat} (heffect : AcceptEffect state.shared (shared, some ending)) :
    Served (({ state with shared := shared } : RunState).move .accept ending.phase) := by
  have hgone : ending.phase ≠ .running := by
    cases ending <;> nofun
  have hother : (({ state with shared := shared } : RunState).move .accept
      ending.phase).helpers .event = state.helpers .event :=
    Supervised.helpers_move_of_ne (by decide) _
  have hself : (({ state with shared := shared } : RunState).move .accept
      ending.phase).helpers .accept = ending.phase := Supervised.helpers_move_self _ _
  cases heffect with
  | leave hrunning hbefore =>
    refine hserved.of_work rfl hserved.heard ?_ ?_ ?_ id rfl rfl rfl nofun
    · rw [hother]
      exact hserved.event
    · rw [hself]
      exact ⟨fun hrunning ↦ absurd hrunning hgone, fun hnot ↦ absurd rfl hnot⟩
    · refine hserved.pushing.trans ⟨?_, fun ⟨_, hrest⟩ ↦ nomatch hrest⟩
      rintro ⟨rest, hrest⟩
      exact absurd hrest (hbefore rest)

/-- A step of a worker of the database. -/
theorem Served.worker (hserved : state.Served) {input : ServerInput} {shared : ServerThreads}
    (hstep : state.shared.workerStep input = some shared) :
    Served { state with shared := shared } := by
  unfold ServerThreads.workerStep at hstep
  split at hstep
  · obtain ⟨loop, hpush, rfl⟩ := Option.map_eq_some_iff.mp hstep
    have hheard := hserved.heard.step hpush
    obtain ⟨-, rfl⟩ := WakeupState.push_step hpush
    refine hserved.of_work rfl hheard hserved.event hserved.accept ?_ ?_ rfl rfl rfl hserved.woken
    · refine Iff.trans ?_ hserved.pushing
      exact ⟨fun hmem ↦ Finset.mem_of_mem_insert_of_ne hmem nofun, Finset.mem_insert_of_mem⟩
    · exact fun hmem ↦ Finset.mem_of_mem_insert_of_ne hmem nofun
  · obtain ⟨loop, hwrite, rfl⟩ := Option.map_eq_some_iff.mp hstep
    have hheard := hserved.heard.step hwrite
    obtain ⟨-, rfl⟩ := WakeupState.write_step hwrite
    refine hserved.of_work rfl hheard hserved.event hserved.accept ?_ ?_ rfl rfl rfl hserved.woken
    · refine Iff.trans ?_ hserved.pushing
      exact ⟨Finset.mem_of_mem_erase, fun hmem ↦ Finset.mem_erase.mpr ⟨nofun, hmem⟩⟩
    · exact Finset.mem_of_mem_erase
  · cases hstep

/-- A duty. -/
theorem Served.of_duty (hserved : state.Served) {duty : Duty ServerThread ServerOrder}
    {rest : List (Duty ServerThread ServerOrder)}
    (hphase : state.phase = .performing (duty :: rest))
    (hnext : next.phase = .performing rest) (hheard : next.shared.loop.Heard)
    (hevent : next.helpers .event = .running ↔ next.shared.loop.phase ≠ .left)
    (haccept : next.helpers .accept = .running ↔ next.shared.acceptor ≠ .left)
    (hpushing : .acceptor ∈ next.shared.loop.waking ↔ ∃ rest, next.shared.acceptor = .waking rest)
    (hcalling : .main ∈ next.shared.loop.waking → ∃ later, rest = .order .callEvent :: later)
    (hcallback : next.shared.acceptWaking = true → ∃ later, rest = .order .callAccept :: later)
    (hwoken : next.shared.acceptor = .waiting → next.shared.acceptStop = true →
      0 < next.shared.acceptCount ∨ next.shared.acceptWaking = true)
    (heventStop : duty = .order .stopEvent ∨ state.shared.loop.stopRequested = true →
      next.shared.loop.stopRequested = true)
    (hacceptStop : duty = .order .stopAccept ∨ state.shared.acceptStop = true →
      next.shared.acceptStop = true) : next.Served where
  heard := hheard
  event := hevent
  accept := haccept
  pushing := hpushing
  calling hwaking := by
    obtain ⟨later, hlater⟩ := hcalling hwaking
    exact ⟨later, hlater ▸ hnext⟩
  callback hwaking := by
    obtain ⟨later, hlater⟩ := hcallback hwaking
    exact ⟨later, hlater ▸ hnext⟩
  woken := hwoken
  eventAsked other hother := by
    obtain rfl : rest = other := by
      rw [hnext] at hother
      exact SupervisorPhase.performing.inj hother
    rcases hserved.eventAsked _ hphase with hmem | hasked
    · rcases List.mem_cons.mp hmem with hduty | hrest
      · exact .inr (heventStop (.inl hduty.symm))
      · exact .inl hrest
    · exact .inr (heventStop (.inr hasked))
  acceptAsked other hother := by
    obtain rfl : rest = other := by
      rw [hnext] at hother
      exact SupervisorPhase.performing.inj hother
    rcases hserved.acceptAsked _ hphase with hmem | hasked
    · rcases List.mem_cons.mp hmem with hduty | hrest
      · exact .inr (hacceptStop (.inl hduty.symm))
      · exact .inl hrest
    · exact .inr (hacceptStop (.inr hasked))

section Duty

variable {duty : Duty ServerThread ServerOrder} {rest : List (Duty ServerThread ServerOrder)}

/-- An eventfd write of the thread of `run` is to come only where the next duty is the callback. -/
theorem Served.main_notMem (hserved : state.Served)
    (hphase : state.phase = .performing (duty :: rest)) (hduty : duty ≠ .order .callEvent) :
    .main ∉ state.shared.loop.waking := by
  intro hwaking
  obtain ⟨later, hlater⟩ := hserved.calling hwaking
  rw [hphase] at hlater
  exact hduty (List.cons.inj (SupervisorPhase.performing.inj hlater)).1

@[inherit_doc Served.main_notMem]
theorem Served.not_acceptWaking (hserved : state.Served)
    (hphase : state.phase = .performing (duty :: rest)) (hduty : duty ≠ .order .callAccept) :
    state.shared.acceptWaking ≠ true := by
  intro hwaking
  obtain ⟨later, hlater⟩ := hserved.callback hwaking
  rw [hphase] at hlater
  exact hduty (List.cons.inj (SupervisorPhase.performing.inj hlater)).1

/-- A duty that leaves the threads as they are. -/
theorem Served.of_still_duty (hserved : state.Served)
    (hphase : state.phase = .performing (duty :: rest)) (hnext : next.phase = .performing rest)
    (hshared : next.shared = state.shared)
    (hevent : next.helpers .event = .running ↔ state.helpers .event = .running)
    (haccept : next.helpers .accept = .running ↔ state.helpers .accept = .running)
    (hmain : .main ∉ state.shared.loop.waking) (hidle : state.shared.acceptWaking ≠ true)
    (heventStop : duty ≠ .order .stopEvent) (hacceptStop : duty ≠ .order .stopAccept) :
    next.Served := by
  refine hserved.of_duty hphase hnext ?_ ?_ ?_ ?_ ?_ ?_ ?_ ?_ ?_ <;> rw [hshared]
  · exact hserved.heard
  · exact hevent.trans hserved.event
  · exact haccept.trans hserved.accept
  · exact hserved.pushing
  · exact fun hwaking ↦ absurd hwaking hmain
  · exact fun hwaking ↦ absurd hwaking hidle
  · exact hserved.woken
  · exact fun hasked ↦ hasked.resolve_left heventStop
  · exact fun hasked ↦ hasked.resolve_left hacceptStop

theorem Served.obey (hserved : state.Served) (hsound : state.Sound serverRun)
    {order : ServerOrder} {shared : ServerThreads}
    (hphase : state.phase = .performing (.order order :: rest))
    (hobey : serverRun.obey order state.shared = some shared) :
    Served { state with shared := shared, phase := .performing rest } := by
  obtain ⟨before, hbefore⟩ := hsound.performing _ hphase
  have hmain := hserved.main_notMem hphase
  have hidle := hserved.not_acceptWaking hphase
  cases order with
  | stopEvent =>
    obtain ⟨loop, hstep, rfl⟩ := Option.map_eq_some_iff.mp hobey
    obtain ⟨-, hloop, hstop, -, -, hwaking⟩ := WakeupState.requestStop_step hstep
    refine hserved.of_duty hphase rfl (hserved.heard.step hstep) ?_ hserved.accept ?_
      (fun _ ↦ rest_of_stopEvent hbefore.split) (fun hwaking ↦ absurd hwaking (hidle nofun))
      hserved.woken (fun _ ↦ hstop) fun hasked ↦ hasked.resolve_left nofun
    · dsimp only
      rw [hloop]
      exact hserved.event
    · refine Iff.trans ?_ hserved.pushing
      dsimp only
      rcases hwaking with hwaking | hwaking
      · rw [hwaking]
      · rw [hwaking]
        exact ⟨fun hmem ↦ Finset.mem_of_mem_insert_of_ne hmem (by decide),
          Finset.mem_insert_of_mem⟩
  | callEvent =>
    dsimp only [serverRun, ServerThreads.obey] at hobey
    split_ifs at hobey with hwaking
    · obtain ⟨loop, hstep, rfl⟩ := Option.map_eq_some_iff.mp hobey
      have hheard := hserved.heard.step hstep
      obtain ⟨-, rfl⟩ := WakeupState.write_step hstep
      refine hserved.of_duty hphase rfl hheard hserved.event hserved.accept ?_
        (fun hmem ↦ absurd hmem (Finset.notMem_erase _ _))
        (fun hwaking ↦ absurd hwaking (hidle nofun)) hserved.woken
        (fun hasked ↦ hasked.resolve_left nofun) fun hasked ↦ hasked.resolve_left nofun
      refine Iff.trans ?_ hserved.pushing
      exact ⟨Finset.mem_of_mem_erase, fun hmem ↦ Finset.mem_erase.mpr ⟨by decide, hmem⟩⟩
    · cases hobey
      exact hserved.of_still_duty hphase rfl rfl Iff.rfl Iff.rfl hwaking (hidle nofun) nofun nofun
  | stopAccept =>
    cases hobey
    refine hserved.of_duty hphase rfl hserved.heard hserved.event hserved.accept
      hserved.pushing (fun hmem ↦ absurd hmem (hmain nofun))
      (fun _ ↦ rest_of_stopAccept hbefore.split) (fun hwaiting _ ↦ .inr ?_)
      (fun hasked ↦ hasked.resolve_left nofun) fun _ ↦ rfl
    change state.shared.acceptor = .waiting at hwaiting
    show decide (state.shared.acceptor ≠ .starting ∧ state.shared.acceptor ≠ .left) = true
    rw [hwaiting]
    rfl
  | callAccept =>
    dsimp only [serverRun, ServerThreads.obey] at hobey
    split_ifs at hobey with hwaking
    · cases hobey
      exact hserved.of_duty hphase rfl hserved.heard hserved.event hserved.accept
        hserved.pushing (fun hmem ↦ absurd hmem (hmain nofun)) nofun
        (fun _ _ ↦ .inl (requestWakeup_pos _)) (fun hasked ↦ hasked.resolve_left nofun)
        fun hasked ↦ hasked.resolve_left nofun
    · cases hobey
      exact hserved.of_still_duty hphase rfl rfl Iff.rfl Iff.rfl (hmain nofun) hwaking nofun nofun
  | wakeRegistry =>
    have hheard : WakeupState.Heard
        { state.shared.loop with count := requestWakeup state.shared.loop.count } :=
      hserved.heard.write state.shared.loop.waking
    cases hobey
    exact hserved.of_duty hphase rfl hheard hserved.event hserved.accept
      hserved.pushing (fun hmem ↦ absurd hmem (hmain nofun))
      (fun hwaking ↦ absurd hwaking (hidle nofun)) hserved.woken
      (fun hasked ↦ hasked.resolve_left nofun) fun hasked ↦ hasked.resolve_left nofun
  | wakeListener =>
    cases hobey
    exact hserved.of_duty hphase rfl hserved.heard hserved.event hserved.accept
      hserved.pushing (fun hmem ↦ absurd hmem (hmain nofun))
      (fun hwaking ↦ absurd hwaking (hidle nofun)) (fun _ _ ↦ .inl (requestWakeup_pos _))
      (fun hasked ↦ hasked.resolve_left nofun) fun hasked ↦ hasked.resolve_left nofun

theorem Served.perform (hserved : state.Served) (hsound : state.Sound serverRun)
    {done : RunState} (hphase : state.phase = .performing (duty :: rest))
    (hperformed : Performed serverRun state duty done) :
    Served { done with phase := .performing rest } := by
  obtain ⟨before, hbefore⟩ := hsound.performing _ hphase
  have hmain := hserved.main_notMem hphase
  have hidle := hserved.not_acceptWaking hphase
  cases hperformed with
  | order hobey => exact hserved.obey hsound hphase hobey
  | join _ =>
    exact hserved.of_still_duty hphase rfl rfl Iff.rfl Iff.rfl (hmain nofun) (hidle nofun) nofun
      nofun
  | answer =>
    exact hserved.of_still_duty hphase rfl rfl Iff.rfl Iff.rfl (hmain nofun) (hidle nofun) nofun
      nofun
  | @retire thread _ =>
    obtain rfl := retire_caller hbefore.split
    refine hserved.of_still_duty hphase rfl rfl ?_ ?_ (hmain nofun) (hidle nofun) nofun nofun
    · show (state.move .caller .left).helpers .event = .running ↔ _
      rw [Supervised.helpers_move_of_ne (by decide)]
    · show (state.move .caller .left).helpers .accept = .running ↔ _
      rw [Supervised.helpers_move_of_ne (by decide)]

end Duty

theorem Served.step (hserved : state.Served) (hsound : state.Sound serverRun)
    {label : SupervisionLabel ServerThread ServerInput}
    (hstep : SupervisedStep serverRun state label next) : next.Served := by
  cases hstep with
  | @goOn thread input _ _ hwork =>
    cases thread with
    | event =>
      cases input with
      | loop label ec => exact hserved.event_goOn (eventEffect_of_step hwork)
      | _ => cases hwork
    | accept => exact hserved.accept_goOn (acceptEffect_of_step hwork)
    | caller => cases input <;> cases hwork
  | @finish thread input _ _ hrunning hwork =>
    cases thread with
    | event =>
      cases input with
      | loop label ec => exact hserved.event_leave (eventEffect_of_step hwork)
      | _ => cases hwork
    | accept => exact hserved.accept_leave (acceptEffect_of_step hwork)
    | caller =>
      cases input with
      | call =>
        cases hwork
        refine hserved.of_shared rfl ?_ ?_ (fun _ hrest ↦ hrest) fun _ hrest ↦ .inl hrest
        · rw [Supervised.helpers_move_of_ne (by decide)]
        · rw [Supervised.helpers_move_of_ne (by decide)]
      | _ => cases hwork
  | @signal thread _ hsignalling _ =>
    have hbefore : state.helpers thread ≠ .running := by rw [hsignalling]; nofun
    exact hserved.of_shared rfl (running_move hbefore nofun) (running_move hbefore nofun)
      (fun _ hrest ↦ hrest) fun _ hrest ↦ .inl hrest
  | @notify thread hnotifying =>
    have hbefore : state.helpers thread ≠ .running := by rw [hnotifying]; nofun
    refine hserved.of_shared rfl (running_move hbefore nofun) (running_move hbefore nofun)
      (fun rest hrest ↦ ?_) fun rest hrest ↦ ?_
    · show state.phase.notified = _
      rw [hrest]
      rfl
    · change state.phase.notified = .performing rest at hrest
      cases hphase : state.phase with
      | performing duties =>
        rw [hphase] at hrest
        exact .inl hrest
      | _ =>
        rw [hphase] at hrest
        cases hrest
  | goBack hchecking _ =>
    refine hserved.of_shared rfl Iff.rfl Iff.rfl (fun _ hrest ↦ ?_) nofun
    rw [hchecking] at hrest
    cases hrest
  | begin hchecking _ =>
    refine hserved.of_shared rfl Iff.rfl Iff.rfl (fun _ hrest ↦ ?_)
      fun _ hrest ↦ .inr (SupervisorPhase.performing.inj hrest).symm
    rw [hchecking] at hrest
    cases hrest
  | park hparking =>
    refine hserved.of_shared rfl Iff.rfl Iff.rfl (fun _ hrest ↦ ?_) nofun
    rw [hparking] at hrest
    cases hrest
  | wake hasleep =>
    refine hserved.of_shared rfl Iff.rfl Iff.rfl (fun _ hrest ↦ ?_) nofun
    rw [hasleep] at hrest
    cases hrest
  | perform hphase hperformed => exact hserved.perform hsound hphase hperformed
  | outside hinput => exact hserved.worker hinput

theorem served_of_reachable (hreach : serverRun.system.Reachable state) : state.Served :=
  hreach.induction served_start fun _ _ _ hmiddle hserved _ hstep ↦
    hserved.step (Supervised.sound_of_reachable hmiddle) (supervisedStep_of_step hstep)

end RunState

end ChatServer
