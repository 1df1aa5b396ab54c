import ChatServer.Client.ClientHandover

/-!
# The end of a client

`chat_client::run` returns when both threads have left. `Orderly` is the order in which that
happens: the io thread is the first to call `signal_stop` and brings what `chat_io_worker::run`
returned, and the executor is asked to stop after that and leaves when nothing is queued. So the
result of `run` is that of the io thread, and every command decoded has been executed, in order and
once (`replies_executed`).

The stop of the executor is requested without its mutex. When the notification comes while the
executor is between its look at the condition and its sleep, nobody hears it: the executor sleeps
and `run` joins it for ever (`Hung`). This is the only way in which the client stays where it is
(`client_blocked_iff`), and in the runs in which the stop is heard (`Heard`) the client returns
after a bounded number of steps (`client_returns`).
-/

set_option autoImplicit false
set_option relaxedAutoImplicit false

namespace ChatServer

/-! ### The order in which the threads stop -/

/-- A state of `chat_client::run`. -/
abbrev ClientState : Type :=
  Supervised ClientThread ClientThreads Nat ClientOrder

/-- A thread is in its body until it calls `signal_stop`, the io thread is the first to call it and
brings what `chat_io_worker::run` returned, and the executor leaves when it is asked to and nothing
is queued. -/
structure ClientState.Orderly (state : ClientState) : Prop where
  io : state.helpers .io = .running ↔ state.shared.io ≠ .left
  executor : state.helpers .execute = .running ↔ state.shared.executor ≠ .left
  result : state.shared.io ≠ .left → state.shared.ioResult = none
  brings : ∀ error, state.helpers .io = .signalling error → state.shared.ioResult = some error
  quiet : ∀ error, state.helpers .execute = .signalling error → error = none
  first : state.stopRequested = true → (state.helpers .io = .notifying ∨
    state.helpers .io = .left) ∧ ∃ error, state.shared.ioResult = some error ∧
      state.signalled.reduceOption = error.toList
  stopped : state.helpers .io = .notifying ∨ state.helpers .io = .left →
    state.stopRequested = true
  ordered : state.shared.executorStop = true → state.stopRequested = true
  asked : ∀ rest, state.phase = .performing rest →
    .order .stopExecutor ∈ rest ∨ state.shared.executorStop = true
  empty : state.shared.executor = .left →
    state.shared.executorStop = true ∧ state.shared.worker.client.executeQ = []

section Duties

variable {done rest : List (Duty ClientThread ClientOrder)}

theorem rest_of_stopExecutor (hsplit : clientDuties = done ++ .order .stopExecutor :: rest) :
    rest = [.order .notifyExecutor, .order .stopIo, .join .execute, .join .io, .answer] := by
  rcases done with _ | ⟨_, _ | ⟨_, _ | ⟨_, _ | ⟨_, _ | ⟨_, _ | ⟨_, done⟩⟩⟩⟩⟩⟩ <;>
    simp [clientDuties] at hsplit
  exact hsplit.symm

theorem rest_of_joinExecute (hsplit : clientDuties = done ++ .join .execute :: rest) :
    rest = [.join .io, .answer] := by
  rcases done with _ | ⟨_, _ | ⟨_, _ | ⟨_, _ | ⟨_, _ | ⟨_, _ | ⟨_, done⟩⟩⟩⟩⟩⟩ <;>
    simp [clientDuties] at hsplit
  exact hsplit.2.2.2.symm

theorem not_retire (hsplit : clientDuties = done ++ rest) (thread : ClientThread) :
    .retire thread ∉ rest := by
  intro hmem
  have hall : Duty.retire thread ∈ clientDuties := hsplit ▸ List.mem_append_right _ hmem
  simp [clientDuties] at hall

end Duties

namespace ClientState

variable {state next : ClientState}

theorem orderly_start : Orderly clientRun.system.start where
  io := ⟨fun _ ↦ nofun, fun _ ↦ rfl⟩
  executor := ⟨fun _ ↦ nofun, fun _ ↦ rfl⟩
  result _ := rfl
  brings := nofun
  quiet := nofun
  first := nofun
  stopped hio := by rcases hio with hio | hio <;> cases hio
  ordered := nofun
  asked := nofun
  empty := nofun

/-- A step that moves no thread between its body and `signal_stop`. -/
theorem Orderly.of_same (hstate : state.Orderly) (hhelpers : next.helpers = state.helpers)
    (hstop : next.stopRequested = state.stopRequested)
    (hsignalled : next.signalled = state.signalled)
    (hio : next.shared.io = .left ↔ state.shared.io = .left)
    (hresult : next.shared.ioResult = state.shared.ioResult)
    (hexecutor : next.shared.executor = .left ↔ state.shared.executor = .left)
    (hordered : next.shared.executorStop = true →
      state.shared.executorStop = true ∨ state.stopRequested = true)
    (hasked : ∀ rest, next.phase = .performing rest →
      .order .stopExecutor ∈ rest ∨ next.shared.executorStop = true)
    (hempty : state.shared.executor = .left → state.shared.executorStop = true →
      next.shared.executorStop = true ∧
        next.shared.worker.client.executeQ = state.shared.worker.client.executeQ) :
    next.Orderly where
  io := by rw [hhelpers, hstate.io, not_iff_not, hio]
  executor := by rw [hhelpers, hstate.executor, not_iff_not, hexecutor]
  result hrunning := by rw [hresult, hstate.result fun hleft ↦ hrunning (hio.mpr hleft)]
  brings error herror := by rw [hresult, hstate.brings error (hhelpers ▸ herror)]
  quiet error herror := hstate.quiet error (hhelpers ▸ herror)
  first hstopped := by
    rw [hhelpers, hresult, hsignalled]
    exact hstate.first (hstop ▸ hstopped)
  stopped hleft := by
    rw [hstop]
    exact hstate.stopped (hhelpers ▸ hleft)
  ordered horder := by
    rw [hstop]
    exact (hordered horder).elim hstate.ordered id
  asked := hasked
  empty hleft := by
    obtain ⟨hexecutorStop, hqueue⟩ := hstate.empty (hexecutor.mp hleft)
    obtain ⟨hkept, hsame⟩ := hempty (hexecutor.mp hleft) hexecutorStop
    exact ⟨hkept, hsame.trans hqueue⟩

/-- While the io thread is in its body, the executor is not gone. -/
theorem Orderly.executor_of_io (hstate : state.Orderly) (hio : state.shared.io ≠ .left) :
    state.shared.executor ≠ .left := by
  intro hleft
  have hrunning := hstate.io.mpr hio
  rcases (hstate.first (hstate.ordered (hstate.empty hleft).1)).1 with hgone | hgone <;>
  · rw [hrunning] at hgone
    cases hgone

/-- While the io thread is in its body, the stop is not requested. -/
theorem Orderly.not_stopped_of_io (hstate : state.Orderly) (hio : state.shared.io ≠ .left) :
    state.stopRequested = false := by
  refine Bool.eq_false_of_not_eq_true fun hstopped ↦ ?_
  have hrunning := hstate.io.mpr hio
  rcases (hstate.first hstopped).1 with hgone | hgone <;>
  · rw [hrunning] at hgone
    cases hgone

theorem notifyExecutor_left (shared : ClientThreads) :
    shared.notifyExecutor.executor = .left ↔ shared.executor = .left := by
  unfold ClientThreads.notifyExecutor
  split_ifs with hasleep
  · rw [hasleep]
    exact ⟨nofun, nofun⟩
  · exact Iff.rfl

theorem worker_notifyExecutor (shared : ClientThreads) :
    shared.notifyExecutor.worker = shared.worker ∧ shared.notifyExecutor.io = shared.io ∧
      shared.notifyExecutor.ioResult = shared.ioResult ∧
      shared.notifyExecutor.executorStop = shared.executorStop := by
  unfold ClientThreads.notifyExecutor
  split_ifs <;> exact ⟨rfl, rfl, rfl, rfl⟩

/-- A step in the body of the io thread. -/
theorem Orderly.io_goOn (hstate : state.Orderly) {shared : ClientThreads}
    (heffect : IoEffect state.shared (shared, none)) :
    Orderly { state with shared := shared } := by
  have hsame : state.shared.io ≠ .left ∧ shared.io ≠ .left ∧
      shared.ioResult = state.shared.ioResult ∧
      (shared.executor = .left ↔ state.shared.executor = .left) ∧
      shared.executorStop = state.shared.executorStop := by
    cases heffect with
    | goOn hrunning hnext _ _ _ => exact ⟨hrunning, hnext, rfl, Iff.rfl, rfl⟩
    | receive hrunning _ _ _ _ => exact ⟨hrunning, nofun, rfl, Iff.rfl, rfl⟩
    | skip hphase _ _ _ =>
      have hrunning : state.shared.io ≠ .left := by rw [hphase]; nofun
      exact ⟨hrunning, hrunning, rfl, Iff.rfl, rfl⟩
    | push hphase _ _ _ _ => exact ⟨by rw [hphase]; nofun, nofun, rfl, Iff.rfl, rfl⟩
    | notify hphase =>
      obtain ⟨-, -, hresult, hstop⟩ := worker_notifyExecutor state.shared
      exact ⟨by rw [hphase]; nofun, nofun, hresult, notifyExecutor_left _, hstop⟩
  obtain ⟨hrunning, hnext, hresult, hexecutor, hstop⟩ := hsame
  refine hstate.of_same rfl rfl rfl ⟨fun hleft ↦ absurd hleft hnext,
    fun hleft ↦ absurd hleft hrunning⟩ hresult hexecutor (fun horder ↦ .inl (hstop ▸ horder))
    (fun rest hrest ↦ ?_) fun hleft ↦ absurd hleft (hstate.executor_of_io hrunning)
  exact (hstate.asked rest hrest).imp_right fun hasked ↦ hstop.trans hasked

/-- A step in the body of the executor. -/
theorem Orderly.executor_goOn (hstate : state.Orderly) {shared : ClientThreads}
    {input : ClientInput} (heffect : ExecutorEffect state.shared input (shared, none)) :
    Orderly { state with shared := shared } := by
  have hsame : state.shared.executor ≠ .left ∧ shared.executor ≠ .left ∧
      shared.io = state.shared.io ∧ shared.ioResult = state.shared.ioResult ∧
      shared.executorStop = state.shared.executorStop := by
    cases heffect with
    | take hphase _ _ _ => exact ⟨by rw [hphase]; nofun, nofun, rfl, rfl, rfl⟩
    | goBack hphase _ _ => exact ⟨by rw [hphase]; nofun, nofun, rfl, rfl, rfl⟩
    | park hphase => exact ⟨by rw [hphase]; nofun, nofun, rfl, rfl, rfl⟩
    | wake hphase => exact ⟨by rw [hphase]; nofun, nofun, rfl, rfl, rfl⟩
    | execute hphase _ _ _ _ => exact ⟨by rw [hphase]; nofun, nofun, rfl, rfl, rfl⟩
  obtain ⟨hrunning, hnext, hio, hresult, hstop⟩ := hsame
  refine hstate.of_same rfl rfl rfl (by rw [hio]) hresult ⟨fun hleft ↦ absurd hleft hnext,
    fun hleft ↦ absurd hleft hrunning⟩ (fun horder ↦ .inl (hstop ▸ horder))
    (fun rest hrest ↦ ?_) fun hleft ↦ absurd hleft hrunning
  exact (hstate.asked rest hrest).imp_right fun hasked ↦ hstop.trans hasked

/-- The io thread returns. -/
theorem Orderly.io_finish (hstate : state.Orderly) {shared : ClientThreads} {ending : Ending Nat}
    (heffect : IoEffect state.shared (shared, some ending)) :
    Orderly (({ state with shared := shared } : ClientState).move .io ending.phase) := by
  have hsame : ∃ result, ending = .signal result ∧ state.shared.io ≠ .left ∧ shared.io = .left ∧
      shared.ioResult = some result ∧ shared.executor = state.shared.executor ∧
      shared.executorStop = state.shared.executorStop := by
    cases heffect with
    | fail hrunning _ _ _ _ => exact ⟨_, rfl, hrunning, rfl, rfl, rfl, rfl⟩
    | finish hphase _ => exact ⟨_, rfl, by rw [hphase]; nofun, rfl, rfl, rfl, rfl⟩
  obtain ⟨result, rfl, hrunning, hleft, hresult, hexecutor, hstop⟩ := hsame
  have hfalse := hstate.not_stopped_of_io hrunning
  exact
    { io := by
        rw [Supervised.helpers_move_self]
        exact ⟨nofun, fun hnot ↦ absurd hleft hnot⟩
      executor := by
        rw [Supervised.helpers_move_of_ne (by decide)]
        show state.helpers .execute = .running ↔ shared.executor ≠ .left
        rw [hexecutor]
        exact hstate.executor
      result := fun hnot ↦ absurd hleft hnot
      brings := fun error herror ↦ by
        rw [Supervised.helpers_move_self] at herror
        cases herror
        exact hresult
      quiet := fun error herror ↦ by
        rw [Supervised.helpers_move_of_ne (by decide)] at herror
        exact hstate.quiet error herror
      first := fun hstopped ↦ absurd (hfalse.symm.trans hstopped) Bool.false_ne_true
      stopped := fun hgone ↦ by
        rw [Supervised.helpers_move_self] at hgone
        rcases hgone with hgone | hgone <;> cases hgone
      ordered := fun horder ↦ hstate.ordered (hstop ▸ horder)
      asked := fun rest hrest ↦ (hstate.asked rest hrest).imp_right fun hasked ↦ hstop.trans hasked
      empty := fun hgone ↦
        absurd (hexecutor.symm.trans hgone) (hstate.executor_of_io hrunning) }

/-- The executor returns. -/
theorem Orderly.executor_finish (hstate : state.Orderly) {shared : ClientThreads}
    {input : ClientInput} {ending : Ending Nat}
    (heffect : ExecutorEffect state.shared input (shared, some ending)) :
    Orderly (({ state with shared := shared } : ClientState).move .execute ending.phase) := by
  cases heffect with
  | leave hphase hstop hqueue =>
    exact
      { io := by
          rw [Supervised.helpers_move_of_ne (by decide)]
          exact hstate.io
        executor := by
          rw [Supervised.helpers_move_self]
          exact ⟨nofun, fun hnot ↦ absurd rfl hnot⟩
        result := hstate.result
        brings := fun error herror ↦ by
          rw [Supervised.helpers_move_of_ne (by decide)] at herror
          exact hstate.brings error herror
        quiet := fun error herror ↦ by
          rw [Supervised.helpers_move_self] at herror
          cases herror
          rfl
        first := fun hstopped ↦ by
          rw [Supervised.helpers_move_of_ne (by decide)]
          exact hstate.first hstopped
        stopped := fun hgone ↦ by
          rw [Supervised.helpers_move_of_ne (by decide)] at hgone
          exact hstate.stopped hgone
        ordered := hstate.ordered
        asked := hstate.asked
        empty := fun _ ↦ ⟨hstop, hqueue⟩ }

/-- The lock region of `signal_stop` in the io thread. -/
theorem Orderly.io_signal (hstate : state.Orderly) (hsound : state.Sound clientRun)
    {error : Option Nat} (hsignalling : state.helpers .io = .signalling error) :
    Orderly ((state.signalStop error).move .io .notifying) := by
  have hgone : state.shared.io = .left := by
    by_contra hrunning
    rw [hstate.io.mpr hrunning] at hsignalling
    cases hsignalling
  have hnone : state.signalled = [] := by
    by_contra hsome
    rcases (hstate.first (hsound.stopped.mpr hsome)).1 with hother | hother <;>
    · rw [hsignalling] at hother
      cases hother
  exact
    { io := by
        rw [Supervised.helpers_move_self]
        exact ⟨nofun, fun hnot ↦ absurd hgone hnot⟩
      executor := by
        rw [Supervised.helpers_move_of_ne (by decide)]
        exact hstate.executor
      result := hstate.result
      brings := fun other hother ↦ by
        rw [Supervised.helpers_move_self] at hother
        cases hother
      quiet := fun other hother ↦ by
        rw [Supervised.helpers_move_of_ne (by decide)] at hother
        exact hstate.quiet other hother
      first := fun _ ↦ by
        rw [Supervised.helpers_move_self]
        refine ⟨.inl rfl, error, hstate.brings error hsignalling, ?_⟩
        show (state.signalled ++ [error]).reduceOption = error.toList
        rw [hnone]
        cases error <;> rfl
      stopped := fun _ ↦ rfl
      ordered := fun _ ↦ rfl
      asked := hstate.asked
      empty := hstate.empty }

/-- The lock region of `signal_stop` in the executor's thread. -/
theorem Orderly.executor_signal (hstate : state.Orderly) {error : Option Nat}
    (hsignalling : state.helpers .execute = .signalling error) :
    Orderly ((state.signalStop error).move .execute .notifying) := by
  obtain rfl := hstate.quiet error hsignalling
  have hgone : state.shared.executor = .left := by
    by_contra hrunning
    rw [hstate.executor.mpr hrunning] at hsignalling
    cases hsignalling
  obtain ⟨hio, result, hresult, hsignalled⟩ :=
    hstate.first (hstate.ordered (hstate.empty hgone).1)
  exact
    { io := by
        rw [Supervised.helpers_move_of_ne (by decide)]
        exact hstate.io
      executor := by
        rw [Supervised.helpers_move_self]
        exact ⟨nofun, fun hnot ↦ absurd hgone hnot⟩
      result := hstate.result
      brings := fun other hother ↦ by
        rw [Supervised.helpers_move_of_ne (by decide)] at hother
        exact hstate.brings other hother
      quiet := fun other hother ↦ by
        rw [Supervised.helpers_move_self] at hother
        cases hother
      first := fun _ ↦ by
        rw [Supervised.helpers_move_of_ne (by decide)]
        refine ⟨hio, result, hresult, ?_⟩
        show (state.signalled ++ [none]).reduceOption = result.toList
        rw [List.reduceOption_append, hsignalled]
        exact List.append_nil _
      stopped := fun _ ↦ rfl
      ordered := fun _ ↦ rfl
      asked := hstate.asked
      empty := hstate.empty }

/-- The notification behind `signal_stop`. -/
theorem Orderly.notify (hstate : state.Orderly) {thread : ClientThread}
    (hnotifying : state.helpers thread = .notifying) :
    Orderly (({ state with phase := state.phase.notified } : ClientState).move thread .left) := by
  let after : ClientState :=
    ({ state with phase := state.phase.notified } : ClientState).move thread .left
  have hself : after.helpers thread = .left := Supervised.helpers_move_self thread _
  have hother : ∀ other, after.helpers other = state.helpers other ∨ other = thread := by
    intro other
    by_cases hsame : other = thread
    · exact .inr hsame
    · exact .inl (Supervised.helpers_move_of_ne hsame _)
  have hrunning : ∀ other, after.helpers other = .running ↔ state.helpers other = .running := by
    intro other
    rcases hother other with hsame | rfl
    · rw [hsame]
    · rw [hself, hnotifying]
      exact ⟨nofun, nofun⟩
  have hsignalling : ∀ other error, after.helpers other = .signalling error →
      state.helpers other = .signalling error := by
    intro other error herror
    rcases hother other with hsame | rfl
    · rwa [hsame] at herror
    · rw [hself] at herror
      cases herror
  have hgone : after.helpers .io = .notifying ∨ after.helpers .io = .left ↔
      state.helpers .io = .notifying ∨ state.helpers .io = .left := by
    rcases hother .io with hsame | rfl
    · rw [hsame]
    · rw [hself, hnotifying]
      exact ⟨fun _ ↦ .inl rfl, fun _ ↦ .inr rfl⟩
  exact
    { io := (hrunning .io).trans hstate.io
      executor := (hrunning .execute).trans hstate.executor
      result := hstate.result
      brings := fun error herror ↦ hstate.brings error (hsignalling .io error herror)
      quiet := fun error herror ↦ hstate.quiet error (hsignalling .execute error herror)
      first := fun hstopped ↦ ⟨hgone.mpr (hstate.first hstopped).1, (hstate.first hstopped).2⟩
      stopped := fun hleft ↦ hstate.stopped (hgone.mp hleft)
      ordered := hstate.ordered
      asked := fun rest hrest ↦ by
        change state.phase.notified = .performing rest at hrest
        cases hphase : state.phase with
        | performing duties =>
          rw [hphase] at hrest
          exact hstate.asked rest (hphase.trans hrest)
        | _ =>
          rw [hphase] at hrest
          cases hrest
      empty := hstate.empty }

/-- A duty. -/
theorem Orderly.perform (hstate : state.Orderly) (hsound : state.Sound clientRun)
    {duty : Duty ClientThread ClientOrder} {rest : List (Duty ClientThread ClientOrder)}
    {done : ClientState} (hphase : state.phase = .performing (duty :: rest))
    (hperformed : Performed clientRun state duty done) :
    Orderly { done with phase := .performing rest } := by
  obtain ⟨before, hbefore⟩ := hsound.performing _ hphase
  have hasked := hstate.asked _ hphase
  have hlater : duty ≠ .order .stopExecutor →
      .order .stopExecutor ∈ rest ∨ state.shared.executorStop = true := by
    intro hduty
    rw [List.mem_cons] at hasked
    rcases hasked with (hsame | hrest) | hasked
    · exact absurd hsame.symm hduty
    · exact .inl hrest
    · exact .inr hasked
  cases hperformed with
  | @order order shared hobey =>
    cases order with
    | stopExecutor =>
      cases hobey
      refine hstate.of_same rfl rfl rfl Iff.rfl rfl Iff.rfl (fun _ ↦ .inr hbefore.stopped)
        (fun _ _ ↦ .inr rfl) fun _ _ ↦ ⟨rfl, rfl⟩
    | notifyExecutor =>
      cases hobey
      obtain ⟨hworker, hio, hresult, hstop⟩ := worker_notifyExecutor state.shared
      refine hstate.of_same rfl rfl rfl ?_ hresult (notifyExecutor_left _)
        (fun horder ↦ .inl (hstop ▸ horder)) (fun later hrest ↦ ?_) fun _ hasked ↦ ⟨?_, ?_⟩
      · show state.shared.notifyExecutor.io = .left ↔ state.shared.io = .left
        rw [hio]
      · cases hrest
        exact (hlater nofun).imp_right fun hasked ↦ hstop.trans hasked
      · exact hstop.trans hasked
      · show state.shared.notifyExecutor.worker.client.executeQ = _
        rw [hworker]
    | stopIo =>
      cases hobey
      refine hstate.of_same rfl rfl rfl Iff.rfl rfl Iff.rfl (fun horder ↦ .inl horder)
        (fun later hrest ↦ ?_) fun _ hasked ↦ ⟨hasked, rfl⟩
      cases hrest
      exact hlater nofun
  | join _ =>
    refine hstate.of_same rfl rfl rfl Iff.rfl rfl Iff.rfl .inl (fun later hrest ↦ ?_)
      fun _ hasked ↦ ⟨hasked, rfl⟩
    cases hrest
    exact hlater nofun
  | answer =>
    refine hstate.of_same rfl rfl rfl Iff.rfl rfl Iff.rfl .inl (fun later hrest ↦ ?_)
      fun _ hasked ↦ ⟨hasked, rfl⟩
    cases hrest
    exact hlater nofun
  | retire _ => exact absurd List.mem_cons_self (not_retire hbefore.split _)

theorem Orderly.step (hstate : state.Orderly) (hsound : state.Sound clientRun)
    {label : SupervisionLabel ClientThread ClientInput}
    (hstep : SupervisedStep clientRun state label next) : next.Orderly := by
  have hphase : ∀ phase : SupervisorPhase ClientThread ClientOrder,
      (∀ rest, phase = .performing rest → .order .stopExecutor ∈ rest) →
        Orderly { state with phase := phase } :=
    fun phase hrest ↦ hstate.of_same rfl rfl rfl Iff.rfl rfl Iff.rfl .inl
      (fun rest hphase ↦ .inl (hrest rest hphase)) fun _ hasked ↦ ⟨hasked, rfl⟩
  cases hstep with
  | @goOn thread _ _ _ hwork =>
    cases thread with
    | execute => exact hstate.executor_goOn (executorEffect_of_step hwork)
    | io => exact hstate.io_goOn (ioEffect_of_ioStep hwork)
  | @finish thread _ _ _ _ hwork =>
    cases thread with
    | execute => exact hstate.executor_finish (executorEffect_of_step hwork)
    | io => exact hstate.io_finish (ioEffect_of_ioStep hwork)
  | @signal thread _ hsignalling _ =>
    cases thread with
    | execute => exact hstate.executor_signal hsignalling
    | io => exact hstate.io_signal hsound hsignalling
  | notify hnotifying => exact hstate.notify hnotifying
  | goBack _ _ => exact hphase _ nofun
  | begin _ _ =>
    refine hphase _ fun rest hrest ↦ ?_
    cases hrest
    exact List.mem_cons_self
  | park _ => exact hphase _ nofun
  | wake _ => exact hphase _ nofun
  | perform hperforming hperformed => exact hstate.perform hsound hperforming hperformed
  | outside hinput => cases hinput

/-- The shared state of a client, after any step. -/
theorem conserves_step (hshared : state.shared.Conserves) (hstate : state.Orderly)
    {label : SupervisionLabel ClientThread ClientInput}
    (hstep : SupervisedStep clientRun state label next) : next.shared.Conserves := by
  cases hstep with
  | @goOn thread _ _ _ hwork =>
    cases thread with
    | execute => exact hshared.executor (executorEffect_of_step hwork)
    | io => exact hshared.io hstate.result (ioEffect_of_ioStep hwork)
  | @finish thread _ _ _ _ hwork =>
    cases thread with
    | execute => exact hshared.executor (executorEffect_of_step hwork)
    | io => exact hshared.io hstate.result (ioEffect_of_ioStep hwork)
  | perform _ hperformed =>
    cases hperformed with
    | order hobey => exact hshared.obey hobey
    | _ => exact hshared
  | outside hinput => cases hinput
  | _ => exact hshared

theorem conserves_start : (clientRun.system.start).shared.Conserves where
  queue := rfl
  hand _ := rfl
  stream := ⟨[], nofun, rfl, rfl⟩
  read _ _ := List.not_mem_nil

theorem orderly_of_reachable
    {condition : ClientState → SupervisionLabel ClientThread ClientInput → Prop}
    (hreach : clientRun.system.ReachableUnder condition state) :
    state.Orderly ∧ state.shared.Conserves := by
  refine @TransitionSystem.ReachableUnder.induction _ _ _ _
    (fun state : ClientState ↦ state.Orderly ∧ state.shared.Conserves)
    ⟨orderly_start, conserves_start⟩ (fun before label after hmiddle hinvariant _ hstep ↦ ?_) _
    hreach
  have hcases := supervisedStep_of_step hstep
  exact ⟨hinvariant.1.step (Supervised.sound_of_reachable hmiddle) hcases,
    conserves_step hinvariant.2 hinvariant.1 hcases⟩

/-! ### Where the executor may stay asleep -/

/-- The executor sleeps although it was asked to stop, and `run` waits for it. -/
structure Hung (state : ClientState) : Prop where
  phase : state.phase = .performing [.join .execute, .join .io, .answer]
  executor : state.shared.executor = .asleep
  io : state.helpers .io = .left

/-- The notification of the stop does not come while the executor is between its look at the
condition and its sleep. -/
def Heard (state : ClientState) (label : SupervisionLabel ClientThread ClientInput) : Prop :=
  match label, state.phase with
  | .perform, .performing (.order .notifyExecutor :: _) => state.shared.executor ≠ .parking
  | _, _ => True

instance decidableHeard (state : ClientState)
    (label : SupervisionLabel ClientThread ClientInput) : Decidable (state.Heard label) := by
  unfold Heard
  split <;> infer_instance

/-- An executor that was asked to stop only goes to sleep when it is about to be notified. -/
def Alert (state : ClientState) : Prop :=
  state.shared.executorStop = true →
    state.shared.executor = .parking ∨ state.shared.executor = .asleep →
      ∃ rest, state.phase = .performing (.order .notifyExecutor :: rest)

/-- A step that leaves the thread of `run` where it is. -/
theorem Alert.of_phase (halert : state.Alert) (hphase : next.phase = state.phase)
    (hstop : next.shared.executorStop = true → state.shared.executorStop = true)
    (hexecutor : next.shared.executorStop = true →
      next.shared.executor = .parking ∨ next.shared.executor = .asleep →
        state.shared.executor = .parking ∨ state.shared.executor = .asleep) : next.Alert := by
  intro hasked hparked
  rw [hphase]
  exact halert (hstop hasked) (hexecutor hasked hparked)

theorem notifyExecutor_parked {shared : ClientThreads}
    (hparked : shared.notifyExecutor.executor = .parking ∨
      shared.notifyExecutor.executor = .asleep) : shared.executor = .parking := by
  unfold ClientThreads.notifyExecutor at hparked
  split_ifs at hparked with hasleep
  · rcases hparked with hparked | hparked <;> cases hparked
  · exact hparked.resolve_right hasleep

theorem Alert.io_work (halert : state.Alert) {shared : ClientThreads}
    {ending : Option (Ending Nat)} (heffect : IoEffect state.shared (shared, ending)) :
    Alert { state with shared := shared } := by
  refine halert.of_phase rfl ?_ ?_
  all_goals
    cases heffect with
    | notify _ =>
      first
        | exact fun hasked ↦ (worker_notifyExecutor _).2.2.2 ▸ hasked
        | exact fun _ hparked ↦ .inl (notifyExecutor_parked hparked)
    | _ =>
      first
        | exact fun hasked ↦ hasked
        | exact fun _ hparked ↦ hparked

theorem Alert.executor_work (halert : state.Alert) {shared : ClientThreads}
    {input : ClientInput} {ending : Option (Ending Nat)}
    (heffect : ExecutorEffect state.shared input (shared, ending)) :
    Alert { state with shared := shared } := by
  cases heffect with
  | goBack _ hstop _ => exact fun hasked ↦ absurd (hstop.symm.trans hasked) Bool.false_ne_true
  | park hphase => exact halert.of_phase rfl id fun _ _ ↦ .inl hphase
  | _ =>
    exact halert.of_phase rfl id fun _ hparked ↦ by rcases hparked with hparked | hparked <;>
      cases hparked

theorem Alert.step (halert : state.Alert) (hsound : state.Sound clientRun)
    {label : SupervisionLabel ClientThread ClientInput} (hheard : state.Heard label)
    (hstep : SupervisedStep clientRun state label next) : next.Alert := by
  -- the thread of `run` cannot be anywhere else than at the notification
  have helsewhere : ∀ {after : ClientState}, after.shared = state.shared →
      (∀ rest, state.phase ≠ .performing (.order .notifyExecutor :: rest)) → after.Alert := by
    intro after hshared hphase hasked hparked
    rw [hshared] at hasked hparked
    obtain ⟨rest, hrest⟩ := halert hasked hparked
    exact absurd hrest (hphase rest)
  cases hstep with
  | @goOn thread _ _ _ hwork =>
    cases thread with
    | execute => exact halert.executor_work (executorEffect_of_step hwork)
    | io => exact halert.io_work (ioEffect_of_ioStep hwork)
  | @finish thread _ _ _ _ hwork =>
    cases thread with
    | execute => exact halert.executor_work (executorEffect_of_step hwork)
    | io => exact halert.io_work (ioEffect_of_ioStep hwork)
  | signal _ _ => exact halert
  | notify _ =>
    intro hasked hparked
    obtain ⟨rest, hrest⟩ := halert hasked hparked
    exact ⟨rest, by show state.phase.notified = _; rw [hrest]; rfl⟩
  | goBack hchecking _ => exact helsewhere rfl fun rest ↦ by rw [hchecking]; nofun
  | begin hchecking _ => exact helsewhere rfl fun rest ↦ by rw [hchecking]; nofun
  | park hparking => exact helsewhere rfl fun rest ↦ by rw [hparking]; nofun
  | wake hasleep => exact helsewhere rfl fun rest ↦ by rw [hasleep]; nofun
  | @perform duty rest done hphase hperformed =>
    obtain ⟨before, hbefore⟩ := hsound.performing _ hphase
    have hother : duty ≠ .order .notifyExecutor →
        ∀ rest, state.phase ≠ .performing (.order .notifyExecutor :: rest) := by
      intro hduty later hlater
      rw [hphase] at hlater
      cases hlater
      exact hduty rfl
    cases hperformed with
    | @order order _ hobey =>
      cases order with
      | stopExecutor =>
        exact fun _ _ ↦ ⟨_, congrArg _ (rest_of_stopExecutor hbefore.split)⟩
      | notifyExecutor =>
        cases hobey
        intro _ hparked
        unfold Heard at hheard
        rw [hphase] at hheard
        exact absurd (notifyExecutor_parked hparked) hheard
      | stopIo =>
        cases hobey
        intro hasked hparked
        obtain ⟨later, hlater⟩ := halert hasked hparked
        exact absurd hlater (hother nofun later)
    | join _ => exact helsewhere rfl (hother nofun)
    | answer => exact helsewhere rfl (hother nofun)
    | retire _ => exact absurd List.mem_cons_self (not_retire hbefore.split _)
  | outside hinput => cases hinput

/-- While the executor executes, it has a command in hand. -/
def Busy (state : ClientState) : Prop :=
  state.shared.executor = .executing → state.shared.worker.client.executing.isSome

theorem Busy.io_work (hbusy : state.Busy) {shared : ClientThreads} {ending : Option (Ending Nat)}
    (heffect : IoEffect state.shared (shared, ending)) :
    shared.executor = .executing → shared.worker.client.executing.isSome := by
  cases heffect with
  | goOn _ _ hworker _ _ => exact fun hphase ↦ hworker.executing ▸ hbusy hphase
  | receive _ _ _ _ hhand => exact fun hphase ↦ hhand ▸ hbusy hphase
  | skip _ _ _ hclient => exact fun hphase ↦ by rw [hclient]; exact hbusy hphase
  | push _ _ _ _ hclient => exact fun hphase ↦ by rw [hclient]; exact hbusy hphase
  | notify _ =>
    dsimp only
    unfold ClientThreads.notifyExecutor
    split_ifs
    · nofun
    · exact hbusy
  | fail _ _ _ _ hhand => exact fun hphase ↦ hhand ▸ hbusy hphase
  | finish _ hworker => exact fun hphase ↦ hworker.executing ▸ hbusy hphase

theorem Busy.executor_work {shared : ClientThreads} {input : ClientInput}
    {ending : Option (Ending Nat)}
    (heffect : ExecutorEffect state.shared input (shared, ending)) :
    shared.executor = .executing → shared.worker.client.executing.isSome := by
  cases heffect with
  | take _ _ _ hclient => exact fun _ ↦ by rw [hclient]; rfl
  | _ => nofun

theorem Busy.step (hbusy : state.Busy) {label : SupervisionLabel ClientThread ClientInput}
    (hstep : SupervisedStep clientRun state label next) : next.Busy := by
  cases hstep with
  | @goOn thread _ _ _ hwork =>
    cases thread with
    | execute => exact Busy.executor_work (executorEffect_of_step hwork)
    | io => exact hbusy.io_work (ioEffect_of_ioStep hwork)
  | @finish thread _ _ _ _ hwork =>
    cases thread with
    | execute => exact Busy.executor_work (executorEffect_of_step hwork)
    | io => exact hbusy.io_work (ioEffect_of_ioStep hwork)
  | perform _ hperformed =>
    cases hperformed with
    | @order order _ hobey =>
      cases order with
      | notifyExecutor =>
        cases hobey
        unfold Busy ClientThreads.notifyExecutor
        dsimp only
        split_ifs
        · nofun
        · exact hbusy
      | _ =>
        cases hobey
        exact hbusy
    | _ => exact hbusy
  | outside hinput => cases hinput
  | _ => exact hbusy

theorem busy_of_reachable
    {condition : ClientState → SupervisionLabel ClientThread ClientInput → Prop}
    (hreach : clientRun.system.ReachableUnder condition state) : state.Busy :=
  hreach.induction (by exact nofun) fun _ _ _ _ hbusy _ hstep ↦
    hbusy.step (supervisedStep_of_step hstep)

theorem alert_of_heard (hreach : clientRun.system.ReachableUnder Heard state) : state.Alert := by
  refine hreach.induction (by exact nofun) fun before label after hmiddle halert hheard hstep ↦ ?_
  exact halert.step (Supervised.sound_of_reachable hmiddle) hheard (supervisedStep_of_step hstep)

/-! ### When nothing comes from outside -/

end ClientState

/-- The steps that need nothing from outside, once the io thread has returned: those of the executor
but a wake-up without a notification. -/
def ClientInput.Prompt : ClientThread → ClientInput → Prop
  | .execute, .wake => False
  | .execute, _ => True
  | .io, _ => False

/-- What the executor may do before it looks at its queue again or sleeps. -/
def ExecutorPhase.rank : ExecutorPhase → Nat
  | .executing => 3
  | .looking => 2
  | .parking => 1
  | .asleep => 0
  | .left => 0

/-- What the executor may do without a new command. -/
def ClientThreads.size (state : ClientThreads) : Nat :=
  4 * state.worker.client.executeQ.length + state.executor.rank

theorem ClientThreads.size_executor {state : ClientThreads} {input : ClientInput}
    {result : ClientThreads × Option (Ending Nat)} (hprompt : ClientInput.Prompt .execute input)
    (heffect : ExecutorEffect state input result) : result.1.size < state.size := by
  unfold ClientThreads.size
  cases heffect with
  | leave hphase _ _ =>
    rw [hphase]
    exact Nat.add_lt_add_left
      (show ExecutorPhase.left.rank < ExecutorPhase.looking.rank by decide) _
  | take hphase _ hqueue hclient =>
    rw [hphase, hqueue, hclient]
    simp only [ExecutorPhase.rank, List.length_cons]
    omega
  | goBack hphase _ _ =>
    rw [hphase]
    exact Nat.add_lt_add_left
      (show ExecutorPhase.parking.rank < ExecutorPhase.looking.rank by decide) _
  | park hphase =>
    rw [hphase]
    exact Nat.add_lt_add_left
      (show ExecutorPhase.asleep.rank < ExecutorPhase.parking.rank by decide) _
  | wake _ => exact hprompt.elim
  | execute hphase _ hqueue _ _ =>
    dsimp only
    rw [hphase, hqueue]
    exact Nat.add_lt_add_left (by decide) _

theorem clientRun_shrinks :
    clientRun.Shrinks ClientInput.Prompt (fun _ ↦ False) ClientThreads.size 2 where
  work thread input shared next ending hprompt hwork := by
    cases thread with
    | execute => exact ClientThreads.size_executor hprompt (executorEffect_of_step hwork)
    | io => exact hprompt.elim
  obey order shared next hobey := by
    cases order with
    | notifyExecutor =>
      cases hobey
      unfold ClientThreads.size ClientThreads.notifyExecutor
      split_ifs with hasleep
      · rw [hasleep]
        simp only [ExecutorPhase.rank]
        omega
      · exact Nat.le_add_right _ _
    | _ =>
      cases hobey
      exact Nat.le_add_right _ _
  outside _ _ _ hlate := hlate.elim

namespace ClientState

variable {state next : ClientState}

/-- The io thread stays where it is when it has returned. -/
theorem io_left_step (hio : state.shared.io = .left)
    {label : SupervisionLabel ClientThread ClientInput}
    (hstep : SupervisedStep clientRun state label next) : next.shared.io = .left := by
  have hnot : ∀ {result : ClientThreads × Option (Ending Nat)}, ¬ IoEffect state.shared result := by
    intro result heffect
    cases heffect with
    | goOn hrunning _ _ _ _ => exact hrunning hio
    | receive hrunning _ _ _ _ => exact hrunning hio
    | skip hphase _ _ _ => exact absurd (hio.symm.trans hphase) nofun
    | push hphase _ _ _ _ => exact absurd (hio.symm.trans hphase) nofun
    | notify hphase => exact absurd (hio.symm.trans hphase) nofun
    | fail hrunning _ _ _ _ => exact hrunning hio
    | finish hphase _ => exact absurd (hio.symm.trans hphase) nofun
  have hexecutor : ∀ {input : ClientInput} {result : ClientThreads × Option (Ending Nat)},
      ExecutorEffect state.shared input result → result.1.io = .left := by
    intro input result heffect
    cases heffect <;> exact hio
  cases hstep with
  | @goOn thread _ _ _ hwork =>
    cases thread with
    | execute => exact hexecutor (executorEffect_of_step hwork)
    | io => exact (hnot (ioEffect_of_ioStep hwork)).elim
  | @finish thread _ _ _ _ hwork =>
    cases thread with
    | execute => exact hexecutor (executorEffect_of_step hwork)
    | io => exact (hnot (ioEffect_of_ioStep hwork)).elim
  | perform _ hperformed =>
    cases hperformed with
    | @order order _ hobey =>
      cases order with
      | notifyExecutor =>
        cases hobey
        exact (worker_notifyExecutor _).2.1.trans hio
      | _ =>
        cases hobey
        exact hio
    | _ => exact hio
  | outside hinput => cases hinput
  | _ => exact hio

theorem io_left_run (hio : state.shared.io = .left)
    {labels : List (SupervisionLabel ClientThread ClientInput)}
    (hrun : clientRun.system.run state labels = some next) : next.shared.io = .left := by
  induction labels generalizing state with
  | nil =>
    cases hrun
    exact hio
  | cons label rest ih =>
    cases hstep : clientRun.system.step state label with
    | none => simp [TransitionSystem.run, hstep] at hrun
    | some middle =>
      rw [clientRun.system.run_cons hstep] at hrun
      exact ih (io_left_step hio (supervisedStep_of_step hstep)) hrun

/-- Nothing can happen in this state unless something comes from outside. -/
def Blocked (state : ClientState) : Prop :=
  ∀ label : SupervisionLabel ClientThread ClientInput,
    label.Internal ClientInput.Prompt (fun _ ↦ False) → state.step clientRun label = none

/-- An executor that can do nothing sleeps or has left. -/
theorem executor_of_blocked (hblocked : state.Blocked) (hshared : state.shared.Conserves)
    (hbusy : state.Busy) (hrunning : state.helpers .execute = .running)
    (hexecutor : state.shared.executor ≠ .left) : state.shared.executor = .asleep := by
  have hnone : ∀ input, ClientInput.Prompt .execute input →
      state.shared.executorStep input = none := by
    intro input hprompt
    have hstep := hblocked (.work .execute input) hprompt
    simp only [Supervised.step, hrunning] at hstep
    exact Option.map_eq_none_iff.mp hstep
  cases hphase : state.shared.executor with
  | looking =>
    have hlook := hnone .look trivial
    have hhand := hshared.hand (by rw [hphase]; decide)
    dsimp only [ClientThreads.executorStep, ChatClient.acquire] at hlook
    rw [if_pos hphase, hhand] at hlook
    split_ifs at hlook with hwoken hleave
    cases hqueue : state.shared.worker.client.executeQ with
    | nil =>
      rw [hqueue] at hwoken hleave
      tauto
    | cons cmd rest =>
      rw [hqueue] at hlook
      cases hlook
  | parking =>
    have hpark := hnone .park trivial
    dsimp only [ClientThreads.executorStep] at hpark
    rw [if_pos hphase] at hpark
    cases hpark
  | asleep => rfl
  | executing =>
    have hexecute := hnone .execute trivial
    obtain ⟨cmd, hcmd⟩ := Option.isSome_iff_exists.mp (hbusy hphase)
    dsimp only [ClientThreads.executorStep, ChatClient.executeNext] at hexecute
    rw [if_pos hphase, hcmd] at hexecute
    cases hexecute
  | left => exact absurd hphase hexecutor

/-- When nothing can happen and the io thread has returned, the stop is requested. -/
theorem gone_of_blocked (hblocked : state.Blocked) (hstate : state.Orderly)
    (hio : state.shared.io = .left) : state.helpers .io = .left := by
  have hpark := hblocked .park trivial
  have hsignal := hblocked (.signal .io) trivial
  have hnotify := hblocked (.notify .io) trivial
  cases hhelper : state.helpers .io with
  | running => exact absurd hio (hstate.io.mp hhelper)
  | signalling error =>
    cases hphase : state.phase with
    | parking => simp only [Supervised.step, hphase, reduceCtorEq] at hpark
    | _ => simp only [Supervised.step, hhelper, hphase, reduceCtorEq] at hsignal
  | notifying => simp only [Supervised.step, hhelper, reduceCtorEq] at hnotify
  | left => rfl

/-- A thread that has left can do nothing. -/
theorem step_left {thread : ClientThread} (hleft : state.helpers thread = .left) :
    (∀ input, state.step clientRun (.work thread input) = none) ∧
      state.step clientRun (.signal thread) = none ∧
      state.step clientRun (.notify thread) = none := by
  simp only [Supervised.step, hleft, implies_true, and_self]

theorem Hung.blocked (hhung : state.Hung) (hstate : state.Orderly) : state.Blocked := by
  have hrunning : state.helpers .execute = .running :=
    hstate.executor.mpr (by rw [hhung.executor]; decide)
  obtain ⟨hwork, hsignal, hnotify⟩ := step_left hhung.io
  intro label hinternal
  cases label with
  | work thread input =>
    cases thread with
    | execute =>
      simp only [Supervised.step, hrunning]
      refine Option.map_eq_none_iff.mpr ?_
      cases input with
      | wake => exact hinternal.elim
      | look => exact if_neg (by rw [hhung.executor]; decide)
      | park => exact if_neg (by rw [hhung.executor]; decide)
      | execute => exact if_neg (by rw [hhung.executor]; decide)
      | _ => rfl
    | io => exact hwork input
  | signal thread =>
    cases thread with
    | execute => simp only [Supervised.step, hrunning]
    | io => exact hsignal
  | notify thread =>
    cases thread with
    | execute => simp only [Supervised.step, hrunning]
    | io => exact hnotify
  | check => simp only [Supervised.step, hhung.phase]
  | park => simp only [Supervised.step, hhung.phase]
  | wake => exact hinternal.elim
  | perform =>
    simp only [Supervised.step, hhung.phase, Supervised.perform, hrunning, Option.map_none]
  | outside _ => exact hinternal.elim

theorem blocked_of_returned (hreturned : state.Returned) (hsound : state.Sound clientRun) :
    state.Blocked := by
  obtain ⟨done, hdone⟩ := hsound.performing [] hreturned
  have hsplit : clientDuties = done := hdone.split.trans (List.append_nil _)
  have hleft : ∀ thread, state.helpers thread = .left := by
    intro thread
    refine hdone.left thread (.inl ?_)
    rw [← hsplit]
    cases thread <;> simp [clientDuties]
  have hphase : state.phase = .performing [] := hreturned
  intro label hinternal
  cases label with
  | work thread input => exact (step_left (hleft thread)).1 input
  | signal thread => exact (step_left (hleft thread)).2.1
  | notify thread => exact (step_left (hleft thread)).2.2
  | wake => exact hinternal.elim
  | outside _ => exact hinternal.elim
  | _ => simp only [Supervised.step, hphase]

/-- When nothing can happen and the io thread has returned, `run` has returned or it hangs. -/
theorem returned_or_hung (hblocked : state.Blocked) (hreach : clientRun.system.Reachable state)
    (hio : state.shared.io = .left) : state.Returned ∨ state.Hung := by
  obtain ⟨hstate, hshared⟩ := orderly_of_reachable hreach
  have hsound := Supervised.sound_of_reachable hreach
  have hgone := gone_of_blocked hblocked hstate hio
  rcases hsound.blocked (hstate.stopped (.inr hgone)) (hblocked .check trivial)
    (hblocked .perform trivial) (fun thread ↦ hblocked (.signal thread) trivial)
    (fun thread ↦ hblocked (.notify thread) trivial) with
    hreturned | ⟨order, rest, -, hobey⟩ | ⟨thread, rest, hphase, hrunning⟩
  · exact .inl hreturned
  · cases order <;> cases hobey
  · cases thread with
    | execute =>
      obtain ⟨done, hdone⟩ := hsound.performing _ hphase
      refine .inr ⟨?_, ?_, hgone⟩
      · rw [hphase, rest_of_joinExecute hdone.split]
      · exact executor_of_blocked hblocked hshared (busy_of_reachable hreach) hrunning
          (hstate.executor.mp hrunning)
    | io =>
      rw [hgone] at hrunning
      cases hrunning

/-- Where the stop is heard, `run` does not hang. -/
theorem not_hung_of_heard (hreach : clientRun.system.ReachableUnder Heard state) :
    ¬ state.Hung := by
  intro hhung
  obtain ⟨hstate, -⟩ := orderly_of_reachable hreach
  have hasked : state.shared.executorStop = true := by
    rcases hstate.asked _ hhung.phase with hmem | hasked
    · simp at hmem
    · exact hasked
  obtain ⟨rest, hrest⟩ := alert_of_heard hreach hasked (.inr hhung.executor)
  rw [hhung.phase] at hrest
  cases hrest

end ClientState

/-! ### Results -/

/-- The commands of the complete lines of a stream. -/
def decodedCommands (stream : Bytes) : List Command :=
  (DelimitedStream.records newline stream).filterMap fun line ↦ (decode line).toOption

/-- What `run` evaluates before its answer waits for both threads. -/
theorem clientRun_reports : clientRun.Reports
    [.order .stopExecutor, .order .notifyExecutor, .order .stopIo, .join .execute, .join .io] []
    where
  split := rfl
  first := by simp
  awaited thread _ _ _ _ _ := by
    cases thread <;> exact .inl (by simp)

/-- The commands executed are commands of the lines received, and all of them when no complete line
is left. -/
theorem ClientThreads.Conserves.executed {state : ClientThreads} (hstate : state.Conserves)
    (hhand : state.worker.client.executing = none)
    (hqueue : state.worker.client.executeQ = []) :
    state.executed = state.pushed ∧ state.executed <+: decodedCommands state.received ∧
      (newline ∉ state.worker.client.si.recv.currentData →
        state.executed = decodedCommands state.received) := by
  have hpushed := hstate.queue
  rw [hhand, hqueue, Option.toList_none, List.append_nil, List.append_nil] at hpushed
  obtain ⟨taken, htaken, hreceived, hcommands⟩ := hstate.stream
  have hdecoded : decodedCommands state.received = state.executed ++
      (DelimitedStream.records newline state.worker.client.si.recv.currentData).filterMap
        fun line ↦ (decode line).toOption := by
    rw [decodedCommands, hreceived, DelimitedStream.records_joined_append htaken,
      List.filterMap_append, ← hcommands, hpushed]
  refine ⟨hpushed.symm, ⟨_, hdecoded.symm⟩, fun hread ↦ ?_⟩
  rw [hdecoded, DelimitedStream.records_eq_nil_iff.mpr hread, List.filterMap_nil, List.append_nil]

/-- No reply is lost at the end of a client. When `run` has its answer, both threads have left, the
answer is what `chat_io_worker::run` returned, and the commands executed are those that were pushed,
in order and once. They are the commands of the complete lines received, of all of them when the
answer is no error. -/
theorem replies_executed (state : ClientState) (hreach : clientRun.system.Reachable state)
    (answer : Option Nat) (hanswer : state.answer = some answer) :
    (∀ thread, state.helpers thread = .left) ∧ state.shared.ioResult = some answer ∧
      state.shared.executed = state.shared.pushed ∧
      state.shared.executed <+: decodedCommands state.shared.received ∧
      (answer = none → state.shared.executed = decodedCommands state.shared.received) := by
  obtain ⟨horder, hshared⟩ := ClientState.orderly_of_reachable hreach
  obtain ⟨hfirst, hleft⟩ := Supervised.answer_eq clientRun_reports hreach hanswer
  have hall : ∀ thread, state.helpers thread = .left := by
    intro thread
    refine hleft thread (.inl ?_)
    cases thread <;> simp
  obtain ⟨-, result, hresult, hsignalled⟩ := horder.first (horder.stopped (.inr (hall .io)))
  have hsame : answer = result := by
    rw [hfirst, hsignalled]
    cases result <;> rfl
  have hexecutor : state.shared.executor = .left := by
    by_contra hrunning
    exact absurd ((hall .execute).symm.trans (horder.executor.mpr hrunning)) nofun
  have hio : state.shared.io = .left := by
    by_contra hrunning
    exact absurd ((hall .io).symm.trans (horder.io.mpr hrunning)) nofun
  obtain ⟨hpushed, hprefix, hevery⟩ := hshared.executed
    (hshared.hand (by rw [hexecutor]; nofun)) (horder.empty hexecutor).2
  refine ⟨hall, hsame ▸ hresult, hpushed, hprefix, fun hok ↦ hevery ?_⟩
  refine hshared.read (by rw [hio]; nofun) fun ec ↦ ?_
  rw [hresult, ← hsame, hok]
  nofun

/-- A client that receives one reply and the end of the connection. -/
def oneReply : List (SupervisionLabel ClientThread ClientInput) :=
  let env : PollRound :=
    { poll := .ok (0, pollIn), stdin := .eof, lines := fun _ ↦ ⟨false, ⟨[], .wantWrite⟩⟩
      handshake := none, verified := true, writes := ⟨[], .wantWrite⟩
      reads := ⟨[text "response\rlogin success\n"], .zeroReturn⟩ }
  [.work .io (.handshake none true 5), .check, .park, .work .execute .look, .work .execute .park,
    .work .io .check, .work .io (.poll (.ok (0, pollIn)) .eof), .work .io (.serve env 5),
    .work .io .replyLine, .work .io .notify, .work .io .replyLine, .work .io .shutdown,
    .signal .io, .notify .io, .check, .perform, .work .execute .look, .work .execute .execute,
    .perform, .work .execute .look, .signal .execute, .notify .execute, .perform, .perform,
    .perform, .perform]

theorem replies_executed_oneReply : ∃ state : ClientState, clientRun.system.Reachable state ∧
    state.shared.executed = [.cmdResponse (text "login success")] ∧
      state.shared.executed = decodedCommands state.shared.received := by
  have hrun : ((clientRun.system.run clientRun.system.start oneReply).map fun state ↦
      (state.answer, state.shared.executed)) =
        some (some none, [.cmdResponse (text "login success")]) := by
    decide +kernel
  obtain ⟨state, hstate, hseen⟩ := Option.map_eq_some_iff.mp hrun
  rw [Prod.mk.injEq] at hseen
  have hreach : clientRun.system.Reachable state := .of_run hstate
  obtain ⟨-, -, -, -, hevery⟩ := replies_executed state hreach none hseen.1
  exact ⟨state, hreach, hseen.2, hevery rfl⟩

/-- Where a client may stay. Once the io thread has returned, nothing can happen any more exactly
when `run` has returned, or when it joins an executor that was asked to stop and sleeps. -/
theorem client_blocked_iff (state : ClientState) (hreach : clientRun.system.Reachable state)
    (hio : state.shared.io = .left) : state.Blocked ↔ state.Returned ∨ state.Hung := by
  refine ⟨fun hblocked ↦ ClientState.returned_or_hung hblocked hreach hio, ?_⟩
  rintro (hreturned | hhung)
  · exact ClientState.blocked_of_returned hreturned (Supervised.sound_of_reachable hreach)
  · exact hhung.blocked (ClientState.orderly_of_reachable hreach).1

/-- The io thread returns an error, and the executor goes to sleep behind the notification of its
stop. -/
def lostStop : List (SupervisionLabel ClientThread ClientInput) :=
  [.work .io (.handshake (some .other) true 5), .check, .park, .work .execute .look, .signal .io,
    .notify .io, .check, .perform, .perform, .work .execute .park, .perform]

theorem client_blocked_iff_lostStop : ∃ state : ClientState,
    clientRun.system.Reachable state ∧ state.shared.io = .left ∧ state.Blocked ∧
      ¬ state.Returned := by
  have hrun : ((clientRun.system.run clientRun.system.start lostStop).map fun state ↦
      decide (state.shared.io = .left ∧ state.shared.executor = .asleep ∧
        state.helpers .io = .left ∧
        state.phase = .performing [.join .execute, .join .io, .answer])) = some true := by
    decide +kernel
  obtain ⟨state, hstate, hseen⟩ := Option.map_eq_some_iff.mp hrun
  obtain ⟨hio, hasleep, hleft, hphase⟩ := of_decide_eq_true hseen
  have hreach : clientRun.system.Reachable state := .of_run hstate
  refine ⟨state, hreach, hio, ?_, fun hreturned ↦ ?_⟩
  · exact (client_blocked_iff state hreach hio).mpr (.inr ⟨hphase, hasleep, hleft⟩)
  · have hother : state.phase = .performing [] := hreturned
    rw [hphase, SupervisorPhase.performing.injEq] at hother
    exact absurd hother (List.cons_ne_nil _ _)

/-- Where the stop is heard, a client whose io thread has returned comes to its end: a run in which
nothing comes from outside is not longer than the measure of its first state, and a state in which
nothing can happen any more is one in which `run` has returned. -/
theorem client_returns (state : ClientState)
    (hreach : clientRun.system.ReachableUnder ClientState.Heard state)
    (hio : state.shared.io = .left) (labels : List (SupervisionLabel ClientThread ClientInput))
    (hinternal : ∀ label ∈ labels, label.Internal ClientInput.Prompt fun _ ↦ False)
    (hheard : clientRun.system.Meets ClientState.Heard state labels) (last : ClientState)
    (hrun : clientRun.system.run state labels = some last) :
    labels.length ≤ state.measure clientRun ClientThreads.size 2 ∧
      (last.Blocked → last.Returned) := by
  refine ⟨Supervised.run_length_le clientRun_shrinks hinternal hrun, fun hblocked ↦ ?_⟩
  have hlast := hreach.run_meets hheard hrun
  exact (ClientState.returned_or_hung hblocked hlast.reachable
    (ClientState.io_left_run hio hrun)).resolve_right (ClientState.not_hung_of_heard hlast)

/-- The same end of the io thread, with an executor that is asleep in time. -/
theorem client_returns_asleep : ∃ state last : ClientState,
    clientRun.system.ReachableUnder ClientState.Heard state ∧ state.shared.io = .left ∧
      last.answer = some (some 5) ∧ (last.Blocked → last.Returned) := by
  let before : List (SupervisionLabel ClientThread ClientInput) :=
    [.work .io (.handshake (some .other) true 5), .check, .park, .work .execute .look,
      .work .execute .park]
  let labels : List (SupervisionLabel ClientThread ClientInput) :=
    [.signal .io, .notify .io, .check, .perform, .perform, .work .execute .look, .perform,
      .signal .execute, .notify .execute, .perform, .perform, .perform]
  have hbefore : ((clientRun.system.run clientRun.system.start before).map fun state ↦
      (decide (clientRun.system.Meets ClientState.Heard clientRun.system.start before),
        decide (state.shared.io = .left),
        decide (clientRun.system.Meets ClientState.Heard state labels),
        decide ((clientRun.system.run state labels).map (fun last ↦ last.answer) =
          some (some (some 5))))) = some (true, true, true, true) := by
    decide +kernel
  obtain ⟨state, hstate, hseen⟩ := Option.map_eq_some_iff.mp hbefore
  rw [Prod.mk.injEq, Prod.mk.injEq, Prod.mk.injEq] at hseen
  obtain ⟨hfirst, hio, hsecond, hanswer⟩ := hseen
  obtain ⟨last, hlast, hlastAnswer⟩ := Option.map_eq_some_iff.mp (of_decide_eq_true hanswer)
  have hreach : clientRun.system.ReachableUnder ClientState.Heard state :=
    ⟨before, of_decide_eq_true hfirst, hstate⟩
  have hinternal : ∀ label ∈ labels, label.Internal ClientInput.Prompt fun _ ↦ False := by
    simp [labels, SupervisionLabel.Internal, ClientInput.Prompt]
  obtain ⟨-, hreturns⟩ := client_returns state hreach (of_decide_eq_true hio) labels hinternal
    (of_decide_eq_true hsecond) last hlast
  exact ⟨state, last, hreach, of_decide_eq_true hio, hlastAnswer, hreturns⟩

end ChatServer
