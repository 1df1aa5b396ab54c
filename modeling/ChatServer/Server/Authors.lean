import ChatServer.Server.RoomViews

/-!
# The tasks that queued the commands

Which task queued a command is not part of the server's state; `authoredServer` is the server with a
record of it. The record lists the commands under way in the order of their handling, those that the
worker has still to queue after the queued ones. `AuthoredStep` says what each action does to the
pipeline and to the record.
-/

set_option autoImplicit false
set_option relaxedAutoImplicit false

namespace ChatServer

/-- A command under way, with the task that queued it if one did. -/
abbrev Authored := Queued × Option Task

/-- The record after an action: a callback and the acceptor queue in front of what the worker has
still to queue. -/
def authorsAfter (state : ServerState) (label : ServerLabel) (next : ServerState)
    (record : List Authored) : List Authored :=
  match label with
  | .requestRegister | .dispatch _ =>
    record.take state.queued.length ++
      (next.queued.drop state.queued.length).map (fun queued ↦ (queued, none)) ++
      record.drop state.queued.length
  | .take _ =>
    record ++ next.todo.map fun queued ↦ (queued, state.tasks.head?.map TaskEntry.task)
  | .handle _ => record.tail
  | _ => record

/-- The server with the commands under way and the tasks that queued them. -/
def authoredServer [LinearOrder Bytes] :
    TransitionSystem (ServerState × List Authored) ServerLabel :=
  chatServer.withRecord [] authorsAfter

/-- What an action does to the pipeline and to the record. -/
inductive AuthoredStep [LinearOrder Bytes] (pipeline : Pipeline) (record : List Authored) :
    ServerLabel → Pipeline → List Authored → Prop
  | stay (label : ServerLabel) : AuthoredStep pipeline record label pipeline record
  | accept (fd : Int) (hfd : 0 ≤ fd) (hclosed : fd ∉ pipeline.kernel.sockets)
      (hidle : pipeline.acceptor = none) :
      AuthoredStep pipeline record (.accept fd) (pipeline.accepted fd) record
  | register (fd : Int) (conn : Nat) (hacceptor : pipeline.acceptor = some (fd, conn)) :
      AuthoredStep pipeline record .requestRegister (pipeline.registering fd conn)
        (record.take pipeline.queued.length ++
          ({ command := .register fd (epollIn ||| epollRdhup), conn := conn }, none) ::
            record.drop pipeline.queued.length)
  | handle (env : HandlerEnv) (queued : Queued) (rest : List Queued)
      (hqueued : pipeline.queued = queued :: rest) :
      AuthoredStep pipeline record (.handle env) (pipeline.handled env queued rest) record.tail
  | dispatch (env : IoEnv) (stage : Stage) (mask : UInt32) (fd : Int) (si : SocketInfo)
      (hinfo : pipeline.registry.infos.lookup fd = some si) :
      AuthoredStep pipeline record (.dispatch env)
        (pipeline.dispatched fd si (dispatchStage env stage mask si))
        (record.take pipeline.queued.length ++
          ((dispatchStage env stage mask si).requests.map fun command ↦
            (({ command := command, conn := pipeline.kernel.connOf fd } : Queued), none)) ++
          record.drop pipeline.queued.length)
  | take (env : DbEnv) (entry : TaskEntry) (rest : List TaskEntry)
      (htodo : pipeline.todo = []) (htasks : pipeline.tasks = entry :: rest) :
      AuthoredStep pipeline record (.take env) (pipeline.taken env entry rest)
        (record ++ (pipeline.taken env entry rest).todo.map fun queued ↦
          (queued, some entry.task))
  | push (queued : Queued) (rest : List Queued) (htodo : pipeline.todo = queued :: rest) :
      AuthoredStep pipeline record .push (pipeline.pushed queued rest) record

section Steps

variable [LinearOrder Bytes]

/-- Every action is one of these. -/
theorem authoredStep_of_transition {state next : ServerState} {label : ServerLabel}
    (record : List Authored) (htransition : Transition state label next) :
    AuthoredStep state.pipeline record label next.pipeline
      (authorsAfter state label next record) := by
  -- what changes the phase only leaves the pipeline
  have hstay : next.pipeline = state.pipeline →
      AuthoredStep state.pipeline record label next.pipeline record := by
    intro hsame
    rw [hsame]
    exact .stay label
  have hsame := (pipeline_step htransition).resolve_right
  cases htransition with
  | accept fd hfd hclosed hidle => exact .accept fd hfd hclosed hidle
  | requestRegister fd conn hacceptor =>
    have hnew : (state.registering fd conn).queued.drop state.queued.length =
        [{ command := .register fd (epollIn ||| epollRdhup), conn := conn }] := by
      show (state.registering fd conn).pipeline.queued.drop state.pipeline.queued.length = _
      rw [pipeline_registering]
      exact List.drop_left
    unfold authorsAfter
    dsimp only
    rw [hnew, pipeline_registering, List.map_singleton, ← List.append_cons]
    exact .register fd conn hacceptor
  | epollWait events hphase hinterest hnodup => exact hstay (hsame fun hmoves ↦ by cases hmoves)
  | swap events hphase => exact hstay (hsame fun hmoves ↦ by cases hmoves)
  | handle env queued pending events hphase =>
    have hqueued : state.pipeline.queued = queued :: (pending ++ state.cmdQ) := by
      simp [ServerState.pipeline, ServerState.queued, ServerState.pending, hphase]
    exact .handle env queued (pending ++ state.cmdQ) hqueued
  | workDone events hphase => exact hstay (hsame fun hmoves ↦ by cases hmoves)
  | skip env stage event rest hphase hinfo =>
    have hqueued : ({ state with phase := .dispatching .recv rest } : ServerState).queued =
        state.queued := by
      simp [ServerState.queued, ServerState.pending, hphase]
    unfold authorsAfter
    dsimp only
    rw [hqueued, List.drop_length, List.map_nil, List.append_nil, List.take_append_drop]
    refine hstay ?_
    simp [ServerState.pipeline, ServerState.queued, ServerState.pending, ServerState.todo, hphase]
  | dispatch env stage event rest si hphase hinfo =>
    have hnew : (state.dispatched event rest si
        (dispatchStage env stage event.mask si)).queued.drop state.queued.length =
          (dispatchStage env stage event.mask si).requests.map fun command ↦
            { command := command, conn := state.kernel.connOf event.fd } := by
      show (state.dispatched event rest si _).pipeline.queued.drop state.pipeline.queued.length = _
      rw [pipeline_dispatched hphase]
      exact List.drop_left
    unfold authorsAfter
    dsimp only
    rw [hnew, pipeline_dispatched hphase, List.map_map]
    exact .dispatch env stage event.mask event.fd si hinfo
  | dispatchDone stage hphase => exact hstay (hsame fun hmoves ↦ by cases hmoves)
  | take env entry rest hworker htasks =>
    have htodo : state.pipeline.todo = [] := by
      simp [ServerState.pipeline, ServerState.todo, hworker]
    have hhead : state.tasks.head? = some entry := congrArg List.head? htasks
    unfold authorsAfter
    dsimp only
    rw [hhead]
    exact .take env entry rest htodo htasks
  | push entry queued todo hworker =>
    have htodo : state.pipeline.todo = queued :: todo := by
      simp [ServerState.pipeline, ServerState.todo, hworker]
    rw [pipeline_pushed]
    exact .push queued todo htodo
  | finish entry hworker => exact hstay (hsame fun hmoves ↦ by cases hmoves)

variable {pipeline next : Pipeline} {record after : List Authored} {label : ServerLabel}

omit [LinearOrder Bytes] in
/-- The record in two parts: the queued commands, and those the worker has still to queue. -/
theorem split_record (hcovers : record.map Prod.fst = pipeline.underWay) :
    (record.take pipeline.queued.length).map Prod.fst = pipeline.queued ∧
      (record.drop pipeline.queued.length).map Prod.fst = pipeline.todo := by
  rw [List.map_take, List.map_drop, hcovers, Pipeline.underWay]
  exact ⟨List.take_left, List.drop_left⟩

omit [LinearOrder Bytes] in
/-- The record of the commands under way when the first is handled. -/
theorem exists_record_cons (hcovers : record.map Prod.fst = pipeline.underWay) (env : HandlerEnv)
    {queued : Queued} {rest : List Queued} (hqueued : pipeline.queued = queued :: rest) :
    ∃ author later, record = (queued, author) :: later ∧
      later.map Prod.fst = (pipeline.handled env queued rest).underWay := by
  have hunderWay : pipeline.underWay = queued :: (pipeline.handled env queued rest).underWay := by
    rw [Pipeline.underWay, hqueued]
    rfl
  rw [hunderWay] at hcovers
  cases record with
  | nil => cases hcovers
  | cons authored later =>
    obtain ⟨hhead, htail⟩ := List.cons.inj hcovers
    exact ⟨authored.2, later, by rw [← hhead], htail⟩

/-- The record stays that of the commands under way. -/
theorem AuthoredStep.covers (hstep : AuthoredStep pipeline record label next after)
    (hcovers : record.map Prod.fst = pipeline.underWay) :
    after.map Prod.fst = next.underWay := by
  obtain ⟨hqueued, htodo⟩ := split_record hcovers
  cases hstep with
  | stay => exact hcovers
  | accept fd hfd hclosed hidle => exact hcovers
  | register fd conn hacceptor =>
    rw [List.map_append, List.map_cons, hqueued, htodo]
    exact List.append_cons _ _ _
  | handle env queued rest hhead =>
    obtain ⟨author, later, rfl, hlater⟩ := exists_record_cons hcovers env hhead
    exact hlater
  | dispatch env stage mask fd si hinfo =>
    rw [List.map_append, List.map_append, hqueued, htodo, List.map_map]
    rfl
  | take env entry rest hidle htasks =>
    have hids : ∀ commands : List Queued,
        (commands.map fun queued ↦ (queued, some entry.task)).map Prod.fst = commands := by
      intro commands
      rw [List.map_map]
      exact List.map_id commands
    rw [List.map_append, hcovers, hids, Pipeline.underWay, hidle, List.append_nil]
    rfl
  | push queued rest hhead =>
    rw [hcovers, Pipeline.underWay, hhead, List.append_cons]
    rfl

/-- In every state reached the record is that of the commands under way. -/
theorem covers_of_reachable
    {condition : ServerState × List Authored → ServerLabel → Prop}
    {state : ServerState × List Authored}
    (hreach : authoredServer.ReachableUnder condition state) :
    state.2.map Prod.fst = state.1.pipeline.underWay := by
  refine @TransitionSystem.ReachableUnder.induction _ _ authoredServer _
    (fun state ↦ state.2.map Prod.fst = state.1.pipeline.underWay) rfl ?_ _ hreach
  intro before label next _ hcovers _ hstep
  obtain ⟨hmoves, hrecord⟩ := TransitionSystem.withRecord_step_eq_some.mp hstep
  rw [hrecord]
  exact (authoredStep_of_transition before.2 (transition_of_step hmoves)).covers hcovers

end Steps

end ChatServer
