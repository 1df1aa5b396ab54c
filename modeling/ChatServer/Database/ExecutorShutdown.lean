import ChatServer.General.TransitionSystem
import ChatServer.Database.DbExecutor

/-!
# The executor and its stop

`db_executor` gives its queue of tasks to a number of threads. A label is one lock region or one
execution: `enqueue` and the beginning of `stop` are lock regions, `acquire` is the one in
`worker_loop`, in which a thread leaves or takes a task, and `execute` is what it does with the task
outside the lock. The call of `stop` that finds `run` set joins the threads one by one and clears
them; every other call returns at once.

A thread that waits on the condition variable may wake up at any time and goes on only when the
condition holds, so `acquire` is possible exactly then, and notifications need no state of their
own. The record is the tasks whose `enqueue` returned true and the tasks executed, oldest first.

No task is lost or executed twice (`executor_drains`): a thread leaves only when nothing is queued
and nothing can be queued any more.
-/

set_option autoImplicit false
set_option relaxedAutoImplicit false

namespace ChatServer

/-- Where a thread is in `worker_loop`. -/
inductive Worker
  | waiting
  | executing (task : Task)
  | left
  deriving DecidableEq

/-- How far the call of `stop` that set `run` to false has come. -/
inductive StopCall
  | notMade
  | joining (joined : Nat)
  | returned
  deriving DecidableEq

/-- `db_executor` with its threads; `stopRequested` is the state of their stop tokens. -/
structure ExecutorState where
  run : Bool := true
  stopRequested : Bool := false
  tasks : List Task := []
  workers : List Worker
  stopCall : StopCall := .notMade
  accepted : List Task := []
  executed : List Task := []

/-- One lock region or one execution, by the thread at an index where a thread does it. -/
inductive ExecutorLabel
  | enqueue (task : Task)
  | acquire (index : Nat)
  | execute (index : Nat)
  | stop
  | join
  | clear

/-- The task a thread has in hand. -/
def Worker.task : Worker → Option Task
  | .executing task => some task
  | _ => none

namespace ExecutorState

/-- `db_executor::db_executor`. -/
def start (sz : Nat) : ExecutorState where
  workers := List.replicate (if sz = 0 then 1 else sz) .waiting

/-- `enqueue`, with what it returns. -/
def enqueue (state : ExecutorState) (task : Task) : ExecutorState × Bool :=
  if ¬ isDbCommand task.cmd then (state, false)
  else if ¬ state.run then (state, false)
  else
    ({ state with
      tasks := state.tasks ++ [task]
      accepted := state.accepted ++ [task] }, true)

/-- The lock region of `worker_loop`, once `cv.wait` lets the thread go on. -/
def acquire (state : ExecutorState) (index : Nat) : Option ExecutorState :=
  match state.workers[index]? with
  | some .waiting =>
    if ¬ state.run ∨ state.stopRequested ∨ state.tasks ≠ [] then
      if (¬ state.run ∨ state.stopRequested) ∧ state.tasks = [] then
        some { state with workers := state.workers.set index .left }
      else
        match state.tasks with
        | [] => none
        | task :: rest =>
          some { state with tasks := rest, workers := state.workers.set index (.executing task) }
    else none
  | _ => none

/-- `execute`. -/
def execute (state : ExecutorState) (index : Nat) : Option ExecutorState :=
  match state.workers[index]? with
  | some (.executing task) =>
    some
      { state with
        workers := state.workers.set index .waiting
        executed := state.executed ++ [task] }
  | _ => none

/-- The lock region of `stop`. -/
def stop (state : ExecutorState) : ExecutorState :=
  if ¬ state.run then state else { state with run := false, stopCall := .joining 0 }

/-- `w.join()` in the loop of `stop`. -/
def join (state : ExecutorState) : Option ExecutorState :=
  match state.stopCall with
  | .joining joined =>
    if state.workers[joined]? = some .left then
      some { state with stopCall := .joining (joined + 1) }
    else none
  | _ => none

/-- `workers.clear()`, with which `stop` returns. -/
def clear (state : ExecutorState) : Option ExecutorState :=
  match state.stopCall with
  | .joining joined =>
    if joined = state.workers.length then
      some { state with stopRequested := true, workers := [], stopCall := .returned }
    else none
  | _ => none

/-- One step of one thread. -/
def step (state : ExecutorState) : ExecutorLabel → Option ExecutorState
  | .enqueue task => some (state.enqueue task).1
  | .acquire index => state.acquire index
  | .execute index => state.execute index
  | .stop => some state.stop
  | .join => state.join
  | .clear => state.clear

/-- The tasks in the hands of the threads. -/
def inHand (state : ExecutorState) : List Task :=
  state.workers.filterMap Worker.task

end ExecutorState

/-- The executor with `sz` threads as a transition system. -/
def dbExecutor (sz : Nat) : TransitionSystem ExecutorState ExecutorLabel where
  start := ExecutorState.start sz
  step := ExecutorState.step

/-! ### What a step is -/

/-- The steps, each with the state in which it is possible and the state it leads to. -/
inductive ExecutorStep (state : ExecutorState) : ExecutorLabel → ExecutorState → Prop
  | refuse (task : Task) (hrefuses : state.enqueue task = (state, false)) :
      ExecutorStep state (.enqueue task) state
  | accept (task : Task) (hrun : state.run = true) :
      ExecutorStep state (.enqueue task)
        { state with
          tasks := state.tasks ++ [task]
          accepted := state.accepted ++ [task] }
  | leave (index : Nat) (hworker : state.workers[index]? = some .waiting)
      (hends : state.run = false ∨ state.stopRequested = true) (htasks : state.tasks = []) :
      ExecutorStep state (.acquire index)
        { state with workers := state.workers.set index .left }
  | take (index : Nat) (task : Task) (rest : List Task)
      (hworker : state.workers[index]? = some .waiting) (htasks : state.tasks = task :: rest) :
      ExecutorStep state (.acquire index)
        { state with tasks := rest, workers := state.workers.set index (.executing task) }
  | execute (index : Nat) (task : Task)
      (hworker : state.workers[index]? = some (.executing task)) :
      ExecutorStep state (.execute index)
        { state with
          workers := state.workers.set index .waiting
          executed := state.executed ++ [task] }
  | stopped (hrun : state.run = false) : ExecutorStep state .stop state
  | stop (hrun : state.run = true) :
      ExecutorStep state .stop { state with run := false, stopCall := .joining 0 }
  | join (joined : Nat) (hcall : state.stopCall = .joining joined)
      (hworker : state.workers[joined]? = some .left) :
      ExecutorStep state .join { state with stopCall := .joining (joined + 1) }
  | clear (hcall : state.stopCall = .joining state.workers.length) :
      ExecutorStep state .clear
        { state with stopRequested := true, workers := [], stopCall := .returned }

theorem executorStep_of_step {sz : Nat} {state next : ExecutorState} {label : ExecutorLabel}
    (hstep : (dbExecutor sz).step state label = some next) : ExecutorStep state label next := by
  have hstep' : state.step label = some next := hstep
  cases label with
  | enqueue task =>
    have hnext := Option.some.inj hstep'
    by_cases hdb : isDbCommand task.cmd = true
    · by_cases hrun : state.run = true
      · rw [ExecutorState.enqueue, if_neg (not_not.mpr hdb), if_neg (not_not.mpr hrun)] at hnext
        rw [← hnext]
        exact .accept task hrun
      · have hrefuses : state.enqueue task = (state, false) := by
          rw [ExecutorState.enqueue, if_neg (not_not.mpr hdb), if_pos hrun]
        rw [hrefuses] at hnext
        rw [← hnext]
        exact .refuse task hrefuses
    · have hrefuses : state.enqueue task = (state, false) := by
        rw [ExecutorState.enqueue, if_pos hdb]
      rw [hrefuses] at hnext
      rw [← hnext]
      exact .refuse task hrefuses
  | acquire index =>
    simp only [ExecutorState.step, ExecutorState.acquire] at hstep'
    split at hstep'
    · next hworker =>
      split_ifs at hstep' with hgoes hends
      · rw [← Option.some.inj hstep']
        exact .leave index hworker (by simpa using hends.1) hends.2
      · split at hstep'
        · cases hstep'
        · next task rest htasks =>
          rw [← Option.some.inj hstep']
          exact .take index task rest hworker htasks
    · cases hstep'
  | execute index =>
    simp only [ExecutorState.step, ExecutorState.execute] at hstep'
    split at hstep'
    · next task hworker =>
      rw [← Option.some.inj hstep']
      exact .execute index task hworker
    · cases hstep'
  | stop =>
    have hnext := Option.some.inj hstep'
    by_cases hrun : state.run = true
    · rw [ExecutorState.stop, if_neg (not_not.mpr hrun)] at hnext
      rw [← hnext]
      exact .stop hrun
    · rw [ExecutorState.stop, if_pos hrun] at hnext
      rw [← hnext]
      exact .stopped (Bool.eq_false_of_not_eq_true hrun)
  | join =>
    simp only [ExecutorState.step, ExecutorState.join] at hstep'
    split at hstep'
    · next joined hcall =>
      split_ifs at hstep' with hworker
      rw [← Option.some.inj hstep']
      exact .join joined hcall hworker
    · cases hstep'
  | clear =>
    simp only [ExecutorState.step, ExecutorState.clear] at hstep'
    split at hstep'
    · next joined hcall =>
      split_ifs at hstep' with hall
      rw [← Option.some.inj hstep']
      exact .clear (hall ▸ hcall)
    · cases hstep'

/-! ### What holds in every state -/

/-- One thread changes, and so does what it contributes. -/
theorem perm_filterMap_set {Elem Value : Type} {project : Elem → Option Value} {elems : List Elem}
    {index : Nat} {before : Elem} (hbefore : elems[index]? = some before) (after : Elem) :
    ((elems.set index after).filterMap project ++ (project before).toList).Perm
      (elems.filterMap project ++ (project after).toList) := by
  have hcons : ∀ (elem : Elem) (rest : List Elem), (elem :: rest).filterMap project =
      (project elem).toList ++ rest.filterMap project := by
    intro elem rest
    rw [List.filterMap_cons]
    cases project elem <;> rfl
  induction elems generalizing index with
  | nil => cases hbefore
  | cons elem rest ih =>
    cases index with
    | zero =>
      obtain rfl := Option.some.inj hbefore
      rw [List.set_cons_zero, hcons, hcons, List.append_assoc (project elem).toList]
      exact List.perm_append_comm.trans (List.Perm.append_left _ List.perm_append_comm)
    | succ index =>
      rw [List.set_cons_succ, hcons, hcons, List.append_assoc, List.append_assoc]
      exact List.Perm.append_left _ (ih hbefore)

namespace ExecutorState

/-- Every accepted task is executed, in hand or queued; threads leave only when nothing is queued
and nothing can be; and the call of `stop` waits for all of them. -/
structure Drains (state : ExecutorState) : Prop where
  kept : state.accepted.Perm (state.executed ++ (state.inHand ++ state.tasks))
  left : .left ∈ state.workers → state.run = false ∧ state.tasks = []
  present : state.workers = [] → state.stopCall = .returned
  requested : state.stopRequested = true → state.stopCall = .returned
  joined : ∀ joined, state.stopCall = .joining joined →
    state.run = false ∧ ∀ index < joined, state.workers[index]? = some .left
  returned : state.stopCall = .returned →
    state.run = false ∧ state.tasks = [] ∧ state.workers = []

theorem drains_start (sz : Nat) : (start sz).Drains where
  kept := by
    simp [start, inHand, Worker.task]
  left hleft := by
    have hmem := List.eq_of_mem_replicate hleft
    cases hmem
  present hnone := by
    rw [start, List.replicate_eq_nil_iff] at hnone
    split_ifs at hnone with hsz
    exact absurd hnone hsz
  requested hrequested := by cases hrequested
  joined joined hcall := by cases hcall
  returned hcall := by cases hcall

variable {state next : ExecutorState} {label : ExecutorLabel}

/-- A thread that is done with its call of `join` is not the one that takes a step. -/
theorem getElem?_set_of_left {index other : Nat} {before after : Worker}
    (hbefore : state.workers[index]? = some before) (hne : before ≠ .left)
    (hleft : state.workers[other]? = some .left) :
    (state.workers.set index after)[other]? = some .left := by
  have hdiffer : index ≠ other := by
    intro hsame
    rw [hsame, hleft, Option.some.injEq] at hbefore
    exact hne hbefore.symm
  rw [List.getElem?_set_ne hdiffer]
  exact hleft

theorem left_mem_of_set {index : Nat} {after : Worker} (hafter : after ≠ .left)
    (hleft : .left ∈ state.workers.set index after) : .left ∈ state.workers := by
  rcases List.mem_or_eq_of_mem_set hleft with hmem | hsame
  · exact hmem
  · exact absurd hsame.symm hafter

/-- After the call of `stop` has returned there are no threads. -/
theorem Drains.absurd_of_returned {goal : Prop} (hdrains : state.Drains)
    (hcall : state.stopCall = .returned) {index : Nat} {worker : Worker}
    (hworker : state.workers[index]? = some worker) : goal := by
  rw [(hdrains.returned hcall).2.2] at hworker
  cases hworker

/-- A thread changes what it does, and nothing of the call of `stop` changes. -/
theorem Drains.set_worker (hdrains : state.Drains) {index : Nat} {before after : Worker}
    (hworker : state.workers[index]? = some before) (hbefore : before ≠ .left)
    (hworkers : next.workers = state.workers.set index after) (hrun : next.run = state.run)
    (hrequested : next.stopRequested = state.stopRequested)
    (hcall : next.stopCall = state.stopCall)
    (hkept : next.accepted.Perm (next.executed ++ (next.inHand ++ next.tasks)))
    (hleft : .left ∈ next.workers → next.run = false ∧ next.tasks = []) : next.Drains where
  kept := hkept
  left := hleft
  present hnone := by
    rw [hworkers, List.set_eq_nil_iff] at hnone
    rw [hcall]
    exact hdrains.present hnone
  requested hnext := by
    rw [hrequested] at hnext
    rw [hcall]
    exact hdrains.requested hnext
  joined joined hjoining := by
    rw [hcall] at hjoining
    obtain ⟨hstopped, hjoined⟩ := hdrains.joined joined hjoining
    refine ⟨hrun.trans hstopped, fun other hother ↦ ?_⟩
    rw [hworkers]
    exact getElem?_set_of_left hworker hbefore (hjoined other hother)
  returned hreturned := by
    rw [hcall] at hreturned
    exact hdrains.absurd_of_returned hreturned hworker

/-- When the call of `stop` has joined every thread, none has a task in hand. -/
theorem Drains.inHand_of_joined (hdrains : state.Drains)
    (hcall : state.stopCall = .joining state.workers.length) :
    (∀ worker ∈ state.workers, worker = .left) ∧ state.inHand = [] := by
  have hall : ∀ worker ∈ state.workers, worker = .left := by
    intro worker hworker
    obtain ⟨index, hindex, hget⟩ := List.mem_iff_getElem.mp hworker
    have hleft := (hdrains.joined _ hcall).2 index hindex
    rw [List.getElem?_eq_getElem hindex, hget, Option.some.injEq] at hleft
    exact hleft
  refine ⟨hall, List.filterMap_eq_nil_iff.mpr fun worker hworker ↦ ?_⟩
  rw [hall worker hworker]
  rfl

theorem Drains.leave (hdrains : state.Drains) {index : Nat}
    (hworker : state.workers[index]? = some .waiting)
    (hends : state.run = false ∨ state.stopRequested = true) (htasks : state.tasks = []) :
    ({ state with workers := state.workers.set index .left } : ExecutorState).Drains := by
  have hrun : state.run = false := by
    rcases hends with hrun | hrequested
    · exact hrun
    · exact (hdrains.returned (hdrains.requested hrequested)).1
  have hhand := @perm_filterMap_set _ _ Worker.task _ _ _ hworker .left
  rw [show Worker.task .waiting = none from rfl, show Worker.task .left = none from rfl,
    Option.toList_none, List.append_nil, List.append_nil] at hhand
  refine hdrains.set_worker hworker (by decide) rfl rfl rfl rfl ?_ fun _ ↦ ⟨hrun, htasks⟩
  exact hdrains.kept.trans (List.Perm.append_left _ (hhand.symm.append_right _))

theorem Drains.take (hdrains : state.Drains) {index : Nat} {task : Task} {rest : List Task}
    (hworker : state.workers[index]? = some .waiting) (htasks : state.tasks = task :: rest) :
    ({ state with tasks := rest, workers := state.workers.set index (.executing task) } :
      ExecutorState).Drains := by
  have hhand := @perm_filterMap_set _ _ Worker.task _ _ _ hworker (.executing task)
  rw [show Worker.task .waiting = none from rfl, Option.toList_none, List.append_nil] at hhand
  have hkept := hdrains.kept
  rw [htasks, List.append_cons] at hkept
  refine hdrains.set_worker hworker (by decide) rfl rfl rfl rfl
    (hkept.trans (List.Perm.append_left _ (hhand.symm.append_right _))) fun hleft ↦ ?_
  have hnone := (hdrains.left (left_mem_of_set (fun hsame ↦ by cases hsame) hleft)).2
  rw [htasks] at hnone
  cases hnone

theorem Drains.execute (hdrains : state.Drains) {index : Nat} {task : Task}
    (hworker : state.workers[index]? = some (.executing task)) :
    ({ state with
      workers := state.workers.set index .waiting
      executed := state.executed ++ [task] } : ExecutorState).Drains := by
  have hhand := @perm_filterMap_set _ _ Worker.task _ _ _ hworker .waiting
  rw [show Worker.task .waiting = none from rfl, Option.toList_none, List.append_nil] at hhand
  refine hdrains.set_worker hworker (fun hsame ↦ by cases hsame) rfl rfl rfl rfl ?_
    fun hleft ↦ hdrains.left (left_mem_of_set (fun hsame ↦ by cases hsame) hleft)
  refine hdrains.kept.trans ?_
  show (state.executed ++ (state.inHand ++ state.tasks)).Perm (state.executed ++ [task] ++
    ((state.workers.set index .waiting).filterMap Worker.task ++ state.tasks))
  rw [List.append_assoc, ← List.append_assoc [task]]
  refine List.Perm.append_left _ (List.Perm.append_right _ ?_)
  exact hhand.symm.trans List.perm_append_comm

theorem Drains.join (hdrains : state.Drains) {joined : Nat}
    (hcall : state.stopCall = .joining joined) (hworker : state.workers[joined]? = some .left) :
    ({ state with stopCall := .joining (joined + 1) } : ExecutorState).Drains := by
  have hcalled : state.stopCall ≠ .returned := fun hreturned ↦ by
    rw [hcall] at hreturned
    cases hreturned
  obtain ⟨hrun, hjoined⟩ := hdrains.joined joined hcall
  refine ⟨hdrains.kept, hdrains.left, fun hnone ↦ absurd (hdrains.present hnone) hcalled,
    fun hrequested ↦ absurd (hdrains.requested hrequested) hcalled,
    fun other hother ↦ ⟨hrun, fun index hindex ↦ ?_⟩, fun hreturned ↦ by cases hreturned⟩
  rw [← StopCall.joining.inj hother] at hindex
  by_cases hlast : index = joined
  · rw [hlast]
    exact hworker
  · exact hjoined index (by omega)

theorem Drains.clear (hdrains : state.Drains)
    (hcall : state.stopCall = .joining state.workers.length) :
    ({ state with stopRequested := true, workers := [], stopCall := .returned } :
      ExecutorState).Drains := by
  obtain ⟨hall, hhand⟩ := hdrains.inHand_of_joined hcall
  have hpresent : state.workers ≠ [] := fun hnone ↦ by
    rw [hdrains.present hnone] at hcall
    cases hcall
  obtain ⟨worker, hworker⟩ := List.exists_mem_of_ne_nil _ hpresent
  obtain ⟨hrun, htasks⟩ := hdrains.left (hall worker hworker ▸ hworker)
  have hkept := hdrains.kept
  rw [hhand] at hkept
  refine ⟨hkept, fun hleft ↦ absurd hleft List.not_mem_nil, fun _ ↦ rfl, fun _ ↦ rfl,
    fun joined hjoining ↦ ?_, fun _ ↦ ⟨hrun, htasks, rfl⟩⟩
  cases hjoining

theorem Drains.step (hdrains : state.Drains) (hstep : ExecutorStep state label next) :
    next.Drains := by
  have hrunning : state.run = true → state.run ≠ false := fun hrun ↦ by
    rw [hrun]
    exact Bool.true_eq_false_eq_False
  cases hstep with
  | refuse task hrefuses => exact hdrains
  | accept task hrun =>
    refine ⟨?_, fun hleft ↦ absurd (hdrains.left hleft).1 (hrunning hrun), hdrains.present,
      hdrains.requested, hdrains.joined,
      fun hcall ↦ absurd (hdrains.returned hcall).1 (hrunning hrun)⟩
    show (state.accepted ++ [task]).Perm
      (state.executed ++ (state.inHand ++ (state.tasks ++ [task])))
    rw [← List.append_assoc state.inHand, ← List.append_assoc state.executed]
    exact hdrains.kept.append_right [task]
  | leave index hworker hends htasks => exact hdrains.leave hworker hends htasks
  | take index task rest hworker htasks => exact hdrains.take hworker htasks
  | execute index task hworker => exact hdrains.execute hworker
  | stopped hrun => exact hdrains
  | stop hrun =>
    have hcalled : state.stopCall ≠ .returned := fun hcall ↦
      hrunning hrun (hdrains.returned hcall).1
    refine ⟨hdrains.kept, fun hleft ↦ absurd (hdrains.left hleft).1 (hrunning hrun),
      fun hnone ↦ absurd (hdrains.present hnone) hcalled,
      fun hrequested ↦ absurd (hdrains.requested hrequested) hcalled, fun joined hcall ↦ ⟨rfl, ?_⟩,
      fun hcall ↦ by cases hcall⟩
    rw [← StopCall.joining.inj hcall]
    intro index hindex
    omega
  | join joined hcall hworker => exact hdrains.join hcall hworker
  | clear hcall => exact hdrains.clear hcall

/-- With one thread at most, what is accepted is executed, then in hand, then queued. -/
structure InOrder (state : ExecutorState) : Prop where
  single : state.workers.length ≤ 1
  kept : state.accepted = state.executed ++ (state.inHand ++ state.tasks)

theorem inOrder_start {sz : Nat} (hsz : sz ≤ 1) : (start sz).InOrder where
  single := by
    rw [start, List.length_replicate]
    split_ifs
    · exact le_refl 1
    · exact hsz
  kept := by
    simp [start, inHand, Worker.task]

/-- A thread that is the only one. -/
theorem workers_eq_singleton {index : Nat} {worker : Worker} (hsingle : state.workers.length ≤ 1)
    (hworker : state.workers[index]? = some worker) : index = 0 ∧ state.workers = [worker] := by
  obtain ⟨hindex, hget⟩ := List.getElem?_eq_some_iff.mp hworker
  have hlength : state.workers.length = 1 := by omega
  obtain ⟨only, honly⟩ := List.length_eq_one_iff.mp hlength
  have hfirst : index = 0 := by omega
  rw [honly, hfirst] at hworker
  exact ⟨hfirst, by rw [honly, Option.some.inj hworker]⟩

theorem InOrder.step (horder : state.InOrder) (hdrains : state.Drains)
    (hstep : ExecutorStep state label next) : next.InOrder := by
  have hkept := horder.kept
  cases hstep with
  | refuse task hrefuses => exact horder
  | accept task hrun =>
    refine ⟨horder.single, ?_⟩
    show state.accepted ++ [task] = state.executed ++ (state.inHand ++ (state.tasks ++ [task]))
    rw [hkept, List.append_assoc, List.append_assoc]
  | leave index hworker hends htasks =>
    obtain ⟨hfirst, hworkers⟩ := workers_eq_singleton horder.single hworker
    refine ⟨(List.length_set ..).trans_le horder.single, ?_⟩
    rw [inHand, hworkers] at hkept
    rw [inHand, hworkers, hfirst]
    exact hkept
  | take index task rest hworker htasks =>
    obtain ⟨hfirst, hworkers⟩ := workers_eq_singleton horder.single hworker
    refine ⟨(List.length_set ..).trans_le horder.single, ?_⟩
    rw [inHand, hworkers, htasks] at hkept
    rw [inHand, hworkers, hfirst]
    exact hkept
  | execute index task hworker =>
    obtain ⟨hfirst, hworkers⟩ := workers_eq_singleton horder.single hworker
    refine ⟨(List.length_set ..).trans_le horder.single, ?_⟩
    rw [inHand, hworkers] at hkept
    rw [inHand, hworkers, hfirst]
    show state.accepted = state.executed ++ [task] ++ state.tasks
    rw [List.append_assoc]
    exact hkept
  | stopped hrun => exact horder
  | stop hrun => exact ⟨horder.single, hkept⟩
  | join joined hcall hworker => exact ⟨horder.single, hkept⟩
  | clear hcall =>
    refine ⟨Nat.zero_le 1, ?_⟩
    show state.accepted = state.executed ++ ([] ++ state.tasks)
    rw [hkept, (hdrains.inHand_of_joined hcall).2]

/-- After `run` is false it stays so, and nothing is accepted. -/
theorem accepted_of_step (hrun : state.run = false) (hstep : ExecutorStep state label next) :
    next.run = false ∧ next.accepted = state.accepted := by
  cases hstep with
  | accept task hrunning =>
    rw [hrun] at hrunning
    cases hrunning
  | stop hrunning =>
    rw [hrun] at hrunning
    cases hrunning
  | refuse | leave | take | execute | stopped | join | clear => exact ⟨hrun, rfl⟩

theorem accepted_of_run {sz : Nat} {labels : List ExecutorLabel} {later : ExecutorState}
    (hrun : state.run = false) (hlater : (dbExecutor sz).run state labels = some later) :
    later.run = false ∧ later.accepted = state.accepted := by
  induction labels generalizing state with
  | nil =>
    rw [← Option.some.inj hlater]
    exact ⟨hrun, rfl⟩
  | cons label rest ih =>
    cases hstep : (dbExecutor sz).step state label with
    | none =>
      simp only [TransitionSystem.run, hstep] at hlater
      cases hlater
    | some next =>
      rw [TransitionSystem.run_cons _ hstep] at hlater
      obtain ⟨hnext, hsame⟩ := accepted_of_step hrun (executorStep_of_step hstep)
      obtain ⟨hends, haccepted⟩ := ih hnext hlater
      exact ⟨hends, haccepted.trans hsame⟩

theorem enqueue_of_stopped (hrun : state.run = false) (task : Task) :
    state.enqueue task = (state, false) := by
  have hstopped : ¬ state.run = true := by
    rw [hrun]
    exact Bool.false_ne_true
  unfold enqueue
  rw [if_pos hstopped, ite_self]

theorem drains_of_reachable {sz : Nat} (hreach : (dbExecutor sz).Reachable state) :
    state.Drains :=
  hreach.induction (drains_start sz) fun _ _ _ _ ih _ hstep ↦ ih.step (executorStep_of_step hstep)

theorem inOrder_of_reachable {sz : Nat} (hsz : sz ≤ 1)
    (hreach : (dbExecutor sz).Reachable state) : state.InOrder :=
  hreach.induction (inOrder_start hsz) fun _ _ _ hbefore ih _ hstep ↦
    ih.step (drains_of_reachable hbefore) (executorStep_of_step hstep)

/-- A thread leaves when nothing is queued. -/
theorem tasks_of_leaves {index : Nat} (hstep : ExecutorStep state label next)
    (hbefore : state.workers[index]? ≠ some .left) (hafter : next.workers[index]? = some .left) :
    state.tasks = [] := by
  have hchanged : ∀ {other : Nat} {worker : Worker}, worker ≠ .left →
      (state.workers.set other worker)[index]? ≠ some .left := by
    intro other worker hworker hleft
    by_cases hsame : other = index
    · subst hsame
      obtain ⟨hindex, hget⟩ := List.getElem?_eq_some_iff.mp hleft
      rw [List.getElem_set_self] at hget
      exact hworker hget
    · rw [List.getElem?_set_ne hsame] at hleft
      exact hbefore hleft
  cases hstep with
  | leave other hworker hends htasks => exact htasks
  | take other task rest hworker htasks =>
    exact absurd hafter (hchanged fun hsame ↦ by cases hsame)
  | execute other task hworker => exact absurd hafter (hchanged fun hsame ↦ by cases hsame)
  | clear hcall => cases hafter
  | refuse | accept | stopped | stop | join => exact absurd hafter hbefore

end ExecutorState

/-- No accepted task is lost or executed twice. When the call of `stop` that ends the executor has
returned, the tasks executed are the tasks accepted, and from its lock region on nothing is
accepted. No thread leaves while a task is queued, and one thread executes in the order of
`enqueue`. -/
theorem executor_drains (sz : Nat) (state : ExecutorState)
    (hreach : (dbExecutor sz).Reachable state) :
    (state.stopCall = .returned → state.run = false ∧ state.executed.Perm state.accepted) ∧
      (state.run = false → ∀ labels later, (dbExecutor sz).run state labels = some later →
        later.accepted = state.accepted ∧ ∀ task, later.enqueue task = (later, false)) ∧
      (∀ label (next : ExecutorState) (index : Nat),
        (dbExecutor sz).step state label = some next → state.workers[index]? ≠ some Worker.left →
          next.workers[index]? = some Worker.left → state.tasks = []) ∧
      (sz ≤ 1 → state.executed <+: state.accepted) := by
  have hdrains := ExecutorState.drains_of_reachable hreach
  refine ⟨fun hcall ↦ ?_, fun hrun labels later hlater ↦ ?_, fun label next index hstep ↦ ?_,
    fun hsz ↦ ?_⟩
  · obtain ⟨hrun, htasks, hworkers⟩ := hdrains.returned hcall
    have hkept := hdrains.kept
    rw [ExecutorState.inHand, htasks, hworkers, List.filterMap_nil, List.append_nil,
      List.append_nil] at hkept
    exact ⟨hrun, hkept.symm⟩
  · obtain ⟨hends, haccepted⟩ := ExecutorState.accepted_of_run hrun hlater
    exact ⟨haccepted, ExecutorState.enqueue_of_stopped hends⟩
  · exact ExecutorState.tasks_of_leaves (executorStep_of_step hstep)
  · rw [(ExecutorState.inOrder_of_reachable hsz hreach).kept]
    exact List.prefix_append _ _

/-- Two threads, two tasks, and a stop while both are executed. -/
theorem executor_drains_twoThreads : ∃ state : ExecutorState,
    (dbExecutor 2).Reachable state ∧ state.stopCall = .returned ∧ state.accepted.length = 2 ∧
      state.executed.Perm state.accepted := by
  let task (fd : Nat) : Task := { cmd := .cmdListFriend, fd := fd, userId := [] }
  let labels : List ExecutorLabel :=
    [.enqueue (task 1), .enqueue (task 2), .acquire 1, .acquire 0, .stop, .enqueue (task 3),
      .execute 0, .acquire 0, .join, .execute 1, .acquire 1, .join, .clear]
  have hrun : ((dbExecutor 2).run (dbExecutor 2).start labels).map (fun state ↦
      (state.stopCall, state.accepted.length)) = some (.returned, 2) := by
    decide +kernel
  obtain ⟨state, hstate, hseen⟩ := Option.map_eq_some_iff.mp hrun
  have hreach : (dbExecutor 2).Reachable state := .of_run hstate
  obtain ⟨hcall, hlength⟩ := Prod.mk.injEq .. ▸ hseen
  exact ⟨state, hreach, hcall, hlength, ((executor_drains 2 state hreach).1 hcall).2⟩

end ChatServer
