import ChatServer.General.Interleaving
import ChatServer.Server.ExecutedIdentity
import ChatServer.Server.OutgoingStreams
import ChatServer.Server.RequestedReplies

/-!
# Every command is answered, in order

The server with a record of its answers: the commands that each executed task queued, the replies
that were handled, and what their handlers appended to which connection. For a connection the lines
it sent are answered in two ways. A line with a database command becomes a task, and the worker
queues what the task answers; a line with a response is echoed by the event loop itself. The two
meet in the queue of the registry.

While numbers are not used again too early, a registered connection gets just these answers, each
once and whole: what was appended to it by replies is what the replies handled for it are sent as,
and these replies, with those still under way, interleave its echoes and the replies of its tasks,
both in the order of its lines (`replies_in_order`). Every database command has an answer
(`answered_execute`), which for a message that is sent is its broadcast.
-/

set_option autoImplicit false
set_option relaxedAutoImplicit false

namespace ChatServer

/-! ### Every task answers -/

section Tasks

variable [LinearOrder Bytes]

/-- A task queues an answer for every database command. -/
theorem answered_execute (env : DbEnv) {task : Task} (hdb : isDbCommand task.cmd = true)
    (db : Database Bytes) :
    ∃ command ∈ (DbExecutor.execute env task db).2, command.isAnswer = true := by
  have hfirst : ∀ (fd : Int) (message : Bytes) (rest : List RegistryCommand),
      ∃ command ∈ DbExecutor.reply fd message :: rest, command.isAnswer = true :=
    fun fd message rest ↦ ⟨_, List.mem_cons_self, rfl⟩
  have hlast : ∀ (fd : Int) (message : Bytes) (before : List RegistryCommand),
      ∃ command ∈ before ++ [DbExecutor.reply fd message], command.isAnswer = true :=
    fun fd message before ↦ ⟨_, List.mem_append_right _ List.mem_cons_self, rfl⟩
  unfold DbExecutor.execute DbExecutor.loginFirst
  cases hcmd : task.cmd
  case cmdResponse message =>
    rw [hcmd] at hdb
    cases hdb
  all_goals
    dsimp only [DbExecutor.executeLogin, DbExecutor.executeRegister, DbExecutor.executeSay,
      DbExecutor.executeNick, DbExecutor.executeFriendRequest, DbExecutor.executeFriendAccept,
      DbExecutor.executeFriendReject, DbExecutor.executeFriendRemove,
      DbExecutor.executeListFriend, DbExecutor.executeListFriendRequest,
      DbExecutor.executeCreateRoom, DbExecutor.executeDeleteRoom, DbExecutor.executeInviteRoom,
      DbExecutor.executeLeaveRoom, DbExecutor.executeListRoom, DbExecutor.executeHistory,
      DbExecutor.replyResult, DbExecutor.invalidRoomId, DbExecutor.loginError]
    repeat' split
    all_goals
      first
        | exact hfirst _ _ _
        | exact hlast _ _ _
        | exact ⟨_, List.mem_singleton.mpr rfl, rfl⟩
        | exact hlast _ _ [_, _, _]
        | exact hlast _ _ [_]

end Tasks

/-! ### The record -/

/-- The commands that each executed task queued, the commands handled, and what the handlers of
replies appended to which connection; oldest first. -/
structure ReplyLog where
  answered : List (TaskEntry × List RegistryCommand) := []
  handled : List Queued := []
  appended : List (Nat × Command) := []

/-- The replies for a connection among queued commands. -/
def repliesFor (conn : Nat) (queue : List Queued) : List RegistryCommand :=
  (queue.filter fun queued ↦ decide (queued.conn = conn) && queued.command.isReply).map
    Queued.command

/-- The reply that the event loop queues for a line on its own: the response of the line. -/
def echoOf (fd : Int) (line : Bytes) : Option RegistryCommand :=
  match decode line with
  | .ok (.cmdResponse message) => some (.sendOne fd (.cmdResponse message))
  | _ => none

/-- The echoes of the lines of a connection. -/
def Ledger.echoesOf (ledger : Ledger) (fd : Int) (conn : Nat) : List RegistryCommand :=
  (ledger.linesOf conn).filterMap (echoOf fd)

namespace ReplyLog

/-- The tasks of a connection that were executed, with the commands they queued. -/
def answersOf (log : ReplyLog) (conn : Nat) : List (TaskEntry × List RegistryCommand) :=
  log.answered.filter fun answer ↦ decide (answer.1.conn = conn)

/-- The replies that the tasks of a connection queued. -/
def repliesOf (log : ReplyLog) (conn : Nat) : List RegistryCommand :=
  (log.answersOf conn).flatMap fun answer ↦ answer.2.filter RegistryCommand.isReply

/-- What replies appended to a connection. -/
def appendedOf (log : ReplyLog) (conn : Nat) : List Command :=
  valuesOf conn log.appended

/-- The record after a command was handled with these effects. -/
def handling (log : ReplyLog) (kernel : Kernel) (queued : Queued) (effects : List Effect) :
    ReplyLog :=
  { log with
    handled := log.handled ++ [queued]
    appended := log.appended ++
      if queued.command.isReply then effects.filterMap (Effect.outgoing kernel) else [] }

/-- The record after a task was executed. -/
def executing (log : ReplyLog) (entry : TaskEntry) (commands : List RegistryCommand) : ReplyLog :=
  { log with answered := log.answered ++ [(entry, commands)] }

end ReplyLog

section Record

variable [LinearOrder Bytes]

/-- The record after an action. -/
def repliesAfter (state : ServerState) (label : ServerLabel) (_next : ServerState)
    (log : ReplyLog) : ReplyLog :=
  match label with
  | .handle env =>
    match state.pending with
    | [] => log
    | queued :: _ =>
      log.handling state.kernel queued (state.registry.handleCommand env queued.command).2
  | .take env =>
    match state.tasks with
    | [] => log
    | entry :: _ => log.executing entry (DbExecutor.execute env entry.task state.db).2
  | _ => log

/-- The server with its answers. -/
def replyServer : TransitionSystem (ServerState × ReplyLog) ServerLabel :=
  chatServer.withRecord {} repliesAfter

end Record

theorem repliesFor_append (conn : Nat) (first second : List Queued) :
    repliesFor conn (first ++ second) = repliesFor conn first ++ repliesFor conn second := by
  rw [repliesFor, List.filter_append, List.map_append, ← repliesFor, ← repliesFor]

theorem repliesFor_eq_nil {conn : Nat} {queue : List Queued}
    (hnone : ∀ queued ∈ queue, queued.command.isReply = true → queued.conn ≠ conn) :
    repliesFor conn queue = [] := by
  rw [repliesFor, List.map_eq_nil_iff, List.filter_eq_nil_iff]
  intro queued hqueued hreply
  rw [Bool.and_eq_true, decide_eq_true_eq] at hreply
  exact hnone queued hqueued hreply.2 hreply.1

/-- The replies among commands that are all for one connection. -/
theorem repliesFor_same {conn : Nat} {queue : List Queued}
    (hall : ∀ queued ∈ queue, queued.conn = conn) :
    repliesFor conn queue = (queue.map Queued.command).filter RegistryCommand.isReply := by
  have hfilter : (queue.filter fun queued ↦ decide (queued.conn = conn) && queued.command.isReply) =
      queue.filter fun queued ↦ queued.command.isReply := by
    refine List.filter_congr fun queued hqueued ↦ ?_
    rw [decide_eq_true (hall queued hqueued), Bool.true_and]
  rw [repliesFor, hfilter, List.filter_map]
  rfl

/-! ### What a callback echoes -/

theorem requests_of_calls {si : SocketInfo} {called : EpollServer.Called} {data : Bytes}
    (hcalls : EpollServer.Calls si called data) :
    called.2.filter RegistryCommand.isReply = [] := by
  rcases hcalls.requests with hnone | hunregister
  · rw [hnone]
    rfl
  · rw [hunregister]
    rfl

theorem requests_handleExecute (si : SocketInfo) :
    (EpollServer.handleExecute si).requests.filter RegistryCommand.isReply =
      (EpollServer.handleExecute si).line.toList.filterMap (echoOf si.ufd) := by
  unfold EpollServer.handleExecute
  cases si.recv.parseLine with
  | none => rfl
  | some parsed =>
    dsimp only
    cases hdecode : decode parsed.1 with
    | error error => simp [echoOf, hdecode]
    | ok cmd =>
      cases cmd <;> simp [echoOf, hdecode, isDbCommand, RegistryCommand.isReply]

/-- The replies that a callback queues are the echo of its line. -/
theorem replies_dispatchStage (env : IoEnv) (stage : Stage) (mask : UInt32) (si : SocketInfo) :
    (dispatchStage env stage mask si).requests.filter RegistryCommand.isReply =
      (dispatchStage env stage mask si).line.toList.filterMap (echoOf si.ufd) := by
  unfold dispatchStage
  cases stage with
  | recv =>
    dsimp only
    by_cases herror : isErrorEvent mask = true
    · rw [if_pos herror]
      exact requests_of_calls (EpollServer.calls_handleClientError si)
    rw [if_neg herror]
    by_cases hread : isReadEvent mask = true
    · rw [if_pos hread]
      obtain ⟨data, -, hcalls⟩ := EpollServer.calls_handleRecv env mask si
      exact requests_of_calls hcalls
    · rw [if_neg hread]
      rfl
  | send =>
    dsimp only
    by_cases hwrite : isWriteEvent mask = true
    · rw [if_pos hwrite]
      exact requests_of_calls (EpollServer.calls_handleSend env si)
    · rw [if_neg hwrite]
      rfl
  | execute =>
    dsimp only
    by_cases hread : isReadEvent mask = true
    · rw [if_pos hread]
      exact requests_handleExecute si
    · rw [if_neg hread]
      rfl

/-! ### What holds in every state -/

/-- The replies that were handled for a connection or are queued interleave its echoes and what its
tasks have queued; the worker has still to queue the rest. -/
def ReplyLog.Ordered (log : ReplyLog) (pipeline : Pipeline) (fd : Int) (conn : Nat) : Prop :=
  ∃ done, log.repliesOf conn = done ++ repliesFor conn pipeline.todo ∧
    Interleaving (pipeline.ledger.echoesOf fd conn) done
      (repliesFor conn (log.handled ++ pipeline.queued))

/-- What replies appended to a connection is what they are sent as. -/
def ReplyLog.Sent (log : ReplyLog) (conn : Nat) : Prop :=
  ∃ groups, List.Forall₂ RegistryCommand.Expands (repliesFor conn log.handled) groups ∧
    log.appendedOf conn = groups.flatten

namespace Pipeline

/-- Every registered connection has its replies in order, and the record is about connections that
were registered. -/
structure Replies (pipeline : Pipeline) (log : ReplyLog) : Prop where
  executed : log.answered.map Prod.fst = pipeline.ledger.executed.map Execution.entry
  registered : ∀ fd conn, pipeline.registeredAt fd = some conn →
    log.Ordered pipeline fd conn ∧ log.Sent conn
  heldReplies : ∀ queued ∈ log.handled, queued.command.isReply = true →
    ∃ fd, pipeline.Held queued.conn fd
  heldAppends : ∀ entry ∈ log.appended, ∃ fd, pipeline.Held entry.1 fd

variable {pipeline : Pipeline} {log : ReplyLog}

theorem replies_start : ServerState.start.pipeline.Replies {} where
  executed := rfl
  registered fd conn hconn := by
    obtain ⟨hmem, -⟩ := registeredAt_eq_some.mp hconn
    cases hmem
  heldReplies queued hqueued := by cases hqueued
  heldAppends entry hentry := by cases hentry

/-- A command that replies registers nothing. -/
theorem registers_of_isReply {command : RegistryCommand} (hreply : command.isReply = true) :
    command.registers = none := by
  cases command <;> first | rfl | cases hreply

theorem target_of_isReply {command : RegistryCommand} (hreply : command.isReply = true) :
    ∃ fd, command.target = some fd := by
  cases command <;> first | exact ⟨_, rfl⟩ | cases hreply

/-- Nothing is recorded for a connection that is not registered yet, and it has no replies. -/
theorem Replies.nothing (hreplies : pipeline.Replies log) (hplaced : pipeline.Placed)
    (hheard : pipeline.Heard) {owner : Int × Nat} (howner : owner ∈ pipeline.owners) (fd : Int) :
    log.repliesOf owner.2 = [] ∧ repliesFor owner.2 pipeline.todo = [] ∧
      repliesFor owner.2 pipeline.queued = [] ∧ repliesFor owner.2 log.handled = [] ∧
      pipeline.ledger.echoesOf fd owner.2 = [] ∧ log.appendedOf owner.2 = [] := by
  have hunder : ∀ queued ∈ pipeline.queued ++ pipeline.todo, queued.command.isReply = true →
      queued.conn ≠ owner.2 := by
    intro queued hqueued hreply hsame
    obtain ⟨held, hheld, -⟩ := hplaced.commands queued hqueued (registers_of_isReply hreply)
    exact hheld.notOwner owner howner hsame.symm
  refine ⟨?_,
    repliesFor_eq_nil fun queued hqueued ↦ hunder queued (List.mem_append_right _ hqueued),
    repliesFor_eq_nil fun queued hqueued ↦ hunder queued (List.mem_append_left _ hqueued),
    repliesFor_eq_nil fun queued hqueued hreply hsame ↦ ?_, ?_, ?_⟩
  · have hnone : log.answersOf owner.2 = [] := by
      rw [ReplyLog.answersOf, List.filter_eq_nil_iff]
      intro answer hanswer hsame
      have hmem : answer.1 ∈ pipeline.ledger.executed.map Execution.entry :=
        hreplies.executed ▸ List.mem_map_of_mem hanswer
      obtain ⟨execution, hexecution, hentry⟩ := List.mem_map.mp hmem
      have hheld := hplaced.executed execution hexecution
      rw [hentry] at hheld
      exact hheld.notOwner owner howner (of_decide_eq_true hsame).symm
    rw [ReplyLog.repliesOf, hnone, List.flatMap_nil]
  · obtain ⟨held, hheld⟩ := hreplies.heldReplies queued hqueued hreply
    exact hheld.notOwner owner howner hsame.symm
  · rw [Ledger.echoesOf, (hheard.nothing howner).2, List.filterMap_nil]
  · rw [ReplyLog.appendedOf, valuesOf, List.map_eq_nil_iff, List.filter_eq_nil_iff]
    intro entry hentry hsame
    obtain ⟨held, hheld⟩ := hreplies.heldAppends entry hentry
    exact hheld.notOwner owner howner (of_decide_eq_true hsame).symm

/-- A step that leaves the record, the lines and the replies under way, and registers nobody. -/
theorem Replies.mono {next : Pipeline} (hreplies : pipeline.Replies log)
    (hexecuted : next.ledger.executed = pipeline.ledger.executed)
    (hregistered : ∀ fd conn, next.registeredAt fd = some conn →
      pipeline.registeredAt fd = some conn)
    (hlines : next.ledger.lines = pipeline.ledger.lines)
    (htodo : ∀ fd conn, next.registeredAt fd = some conn →
      repliesFor conn next.todo = repliesFor conn pipeline.todo)
    (hqueued : ∀ fd conn, next.registeredAt fd = some conn →
      repliesFor conn next.queued = repliesFor conn pipeline.queued)
    (hheld : ∀ {conn fd}, pipeline.Held conn fd → next.Held conn fd) : next.Replies log := by
  refine ⟨hexecuted ▸ hreplies.executed, fun fd conn hconn ↦ ?_, fun queued hmem hreply ↦ ?_,
    fun entry hentry ↦ ?_⟩
  · obtain ⟨⟨done, hdone, horder⟩, hsent⟩ := hreplies.registered fd conn (hregistered fd conn hconn)
    refine ⟨⟨done, ?_, ?_⟩, hsent⟩
    · rw [htodo fd conn hconn]
      exact hdone
    · rw [repliesFor_append] at horder ⊢
      rw [hqueued fd conn hconn, Ledger.echoesOf, Ledger.linesOf, hlines]
      exact horder
  · obtain ⟨fd, held⟩ := hreplies.heldReplies queued hmem hreply
    exact ⟨fd, hheld held⟩
  · obtain ⟨fd, held⟩ := hreplies.heldAppends entry hentry
    exact ⟨fd, hheld held⟩

/-- What the handling of a command sends to a registered connection that remains: a reply for it,
whole, or no reply at all. -/
theorem sent_handled (howned : pipeline.Owned) (hplaced : pipeline.Placed)
    (haligned : pipeline.Aligned fun _ ↦ true) (env : HandlerEnv) {queued : Queued}
    {rest : List Queued} (hqueued : pipeline.queued = queued :: rest) {fd : Int} {conn : Nat}
    (hconn : pipeline.registeredAt fd = some conn)
    (hafter : (pipeline.handled env queued rest).registeredAt fd = some conn) :
    ∃ sent, List.Forall₂ RegistryCommand.Expands (repliesFor conn [queued]) sent ∧
      valuesOf conn (if queued.command.isReply then
        (pipeline.registry.handleCommand env queued.command).2.filterMap
          (Effect.outgoing pipeline.kernel) else []) = sent.flatten := by
  have hmem : queued ∈ pipeline.queued := hqueued ▸ List.mem_cons_self
  have hopen := (registeredAt_eq_some.mp hconn).2
  by_cases hreply : queued.command.isReply = true
  · rw [if_pos hreply, valuesOf_outgoing
      (fun other hother ↦ howned.injective other fd conn hother hopen) hopen]
    obtain ⟨held, hheld, hdirected⟩ := hplaced.commands queued (List.mem_append_left _ hmem)
      (registers_of_isReply hreply)
    obtain ⟨target, htarget⟩ := target_of_isReply hreply
    by_cases hsame : queued.conn = conn
    · have hfd : queued.command.target = some fd := by
        rw [htarget, hdirected target htarget, hheld.only fd (hsame ▸ hconn)]
      have hone : repliesFor conn [queued] = [queued.command] := by
        simp [repliesFor, hsame, hreply]
      refine ⟨[_], ?_, List.flatten_singleton.symm⟩
      rw [hone]
      exact .cons (EpollRegistry.expands_handleCommand howned.consistent hreply hfd
        (registeredAt_eq_some.mp hafter).1) .nil
    · have hother : queued.command.target ≠ some fd := by
        intro hfd
        exact hsame (haligned.target_registeredAt hqueued rfl hfd hconn).symm
      refine ⟨[], ?_, EpollRegistry.appendedTo_reply_other hreply hother⟩
      rw [repliesFor_eq_nil fun other hmem _ ↦ List.mem_singleton.mp hmem ▸ hsame]
      exact .nil
  · refine ⟨[], ?_, by rw [if_neg hreply]; rfl⟩
    rw [repliesFor_eq_nil fun other hmem hother ↦ by
      rw [List.mem_singleton.mp hmem] at hother
      exact absurd hother hreply]
    exact .nil

theorem Replies.accepted (hreplies : pipeline.Replies log) (howned : pipeline.Owned) {fd : Int}
    (hclosed : fd ∉ pipeline.kernel.sockets)
    (hheld : ∀ {conn other}, pipeline.Held conn other → (pipeline.accepted fd).Held conn other) :
    (pipeline.accepted fd).Replies log :=
  hreplies.mono rfl
    (fun other _ hconn ↦ (registeredAt_accepted howned hclosed other).symm.trans hconn) rfl
    (fun _ _ _ ↦ rfl) (fun _ _ _ ↦ rfl) hheld

theorem Replies.registering (hreplies : pipeline.Replies log) {fd : Int} {conn : Nat}
    (hheld : ∀ {serial other}, pipeline.Held serial other →
      (pipeline.registering fd conn).Held serial other) :
    (pipeline.registering fd conn).Replies log := by
  refine hreplies.mono rfl (fun _ _ hconn ↦ hconn) rfl (fun _ _ _ ↦ rfl) (fun _ serial _ ↦ ?_) hheld
  have hnone : repliesFor serial
      [{ command := .register fd (epollIn ||| epollRdhup), conn := conn }] = [] :=
    repliesFor_eq_nil fun queued hqueued hreply ↦ by
      rw [List.mem_singleton.mp hqueued] at hreply
      cases hreply
  show repliesFor serial (pipeline.queued ++ [_]) = _
  rw [repliesFor_append, hnone, List.append_nil]

/-- The first command is handled. -/
theorem Replies.handled (hreplies : pipeline.Replies log) (howned : pipeline.Owned)
    (hplaced : pipeline.Placed) (haligned : pipeline.Aligned fun _ ↦ true)
    (hheard : pipeline.Heard) (env : HandlerEnv) {queued : Queued} {rest : List Queued}
    (hqueued : pipeline.queued = queued :: rest)
    (hheld : ∀ {conn fd}, pipeline.Held conn fd → (pipeline.handled env queued rest).Held conn fd) :
    (pipeline.handled env queued rest).Replies
      (log.handling pipeline.kernel queued
        (pipeline.registry.handleCommand env queued.command).2) := by
  have hmem : queued ∈ pipeline.queued := hqueued ▸ List.mem_cons_self
  have hmoved : ∀ conn, repliesFor conn ((log.handled ++ [queued]) ++ rest) =
      repliesFor conn (log.handled ++ pipeline.queued) := by
    intro conn
    rw [hqueued, List.append_assoc, List.singleton_append]
  have happended : ∀ conn, (log.handling pipeline.kernel queued
      (pipeline.registry.handleCommand env queued.command).2).appendedOf conn =
        log.appendedOf conn ++ valuesOf conn (if queued.command.isReply then
          (pipeline.registry.handleCommand env queued.command).2.filterMap
            (Effect.outgoing pipeline.kernel) else []) :=
    fun conn ↦ valuesOf_append conn _ _
  refine ⟨hreplies.executed, fun fd conn hconn ↦ ?_, fun other hother hreply ↦ ?_,
    fun entry hentry ↦ ?_⟩
  · rcases registeredAt_handled howned env hqueued fd conn hconn with hconn' | hregisters
    · obtain ⟨⟨done, hdone, horder⟩, groups, hexpands, hgroups⟩ :=
        hreplies.registered fd conn hconn'
      refine ⟨⟨done, hdone, ?_⟩, ?_⟩
      · show Interleaving _ done (repliesFor conn ((log.handled ++ [queued]) ++ rest))
        rw [hmoved]
        exact horder
      obtain ⟨sent, hsent, hvalues⟩ := sent_handled howned hplaced haligned env hqueued hconn' hconn
      refine ⟨groups ++ sent, ?_, ?_⟩
      · show List.Forall₂ _ (repliesFor conn (log.handled ++ [queued])) _
        rw [repliesFor_append]
        exact List.rel_append hexpands hsent
      · rw [happended, hgroups, hvalues, List.flatten_append]
    · -- a connection that is registered by this command has no replies
      have hown := (howned.handles env hqueued).closed fd conn (registeredAt_eq_some.mp hconn).2
      rw [(howned.register_fresh hmem hregisters).1, Option.some.injEq] at hown
      have howner : (fd, conn) ∈ pipeline.owners := by
        rw [owners_handled env hqueued, hregisters, ← hown]
        exact List.mem_append_left _ (List.mem_singleton.mpr rfl)
      obtain ⟨hnone, htodo, hwaiting, hhandled, hechoes, hsent⟩ :=
        hreplies.nothing hplaced hheard howner fd
      have hnoReply : queued.command.isReply ≠ true := by
        intro hreply
        rw [registers_of_isReply hreply] at hregisters
        cases hregisters
      have hnothing : repliesFor conn [queued] = [] := repliesFor_eq_nil fun other hother hreply ↦
        absurd (List.mem_singleton.mp hother ▸ hreply) hnoReply
      refine ⟨⟨[], ?_, ?_⟩, [], ?_, ?_⟩
      · show log.repliesOf conn = [] ++ repliesFor conn pipeline.todo
        rw [hnone, htodo, List.append_nil]
      · show Interleaving (pipeline.ledger.echoesOf fd conn) []
          (repliesFor conn ((log.handled ++ [queued]) ++ rest))
        rw [hmoved, repliesFor_append, hhandled, hwaiting, hechoes]
        exact .nil
      · show List.Forall₂ _ (repliesFor conn (log.handled ++ [queued])) []
        rw [repliesFor_append, hhandled, hnothing]
        exact .nil
      · rw [happended, hsent, if_neg hnoReply]
        rfl
  · rcases List.mem_append.mp hother with hold | hnew
    · obtain ⟨fd, held⟩ := hreplies.heldReplies other hold hreply
      exact ⟨fd, hheld held⟩
    · obtain rfl := List.mem_singleton.mp hnew
      obtain ⟨fd, held, -⟩ := hplaced.commands other (List.mem_append_left _ hmem)
        (registers_of_isReply hreply)
      exact ⟨fd, hheld held⟩
  · rcases List.mem_append.mp hentry with hold | hnew
    · obtain ⟨fd, held⟩ := hreplies.heldAppends entry hold
      exact ⟨fd, hheld held⟩
    · split_ifs at hnew
      · obtain ⟨fd, held⟩ := howned.held_of_outgoing env hnew
        exact ⟨fd, hheld held⟩
      · cases hnew

/-- A callback runs on a connection. -/
theorem Replies.dispatched (hreplies : pipeline.Replies log) (howned : pipeline.Owned)
    {env : IoEnv} {stage : Stage} {mask : UInt32} {fd : Int} {si : SocketInfo}
    (hinfo : pipeline.registry.infos.lookup fd = some si)
    (hheld : ∀ {conn other}, pipeline.Held conn other →
      (pipeline.dispatched fd si (dispatchStage env stage mask si)).Held conn other) :
    (pipeline.dispatched fd si (dispatchStage env stage mask si)).Replies log := by
  have hufd : si.ufd = fd := (howned.consistent.ufd fd si hinfo).1
  refine ⟨hreplies.executed, fun other conn hconn ↦ ?_, fun queued hqueued hreply ↦ ?_,
    fun entry hentry ↦ ?_⟩
  · rw [registeredAt_dispatched hinfo] at hconn
    obtain ⟨⟨done, hdone, horder⟩, hsent⟩ := hreplies.registered other conn hconn
    refine ⟨⟨done, hdone, ?_⟩, hsent⟩
    have hrequests : repliesFor conn ((dispatchStage env stage mask si).requests.map fun command ↦
        { command := command, conn := pipeline.kernel.connOf fd }) =
          if pipeline.kernel.connOf fd = conn then
            (dispatchStage env stage mask si).line.toList.filterMap (echoOf fd) else [] := by
      split_ifs with hsame
      · rw [repliesFor_same, List.map_map, ← hufd, ← replies_dispatchStage]
        · exact congrArg _ (List.map_id _)
        · intro queued hqueued
          obtain ⟨command, -, rfl⟩ := List.mem_map.mp hqueued
          exact hsame
      · refine repliesFor_eq_nil fun queued hqueued _ ↦ ?_
        obtain ⟨command, -, rfl⟩ := List.mem_map.mp hqueued
        exact hsame
    have hechoes : (pipeline.dispatched fd si (dispatchStage env stage mask si)).ledger.echoesOf
        other conn = pipeline.ledger.echoesOf other conn ++
          if pipeline.kernel.connOf fd = conn then
            (dispatchStage env stage mask si).line.toList.filterMap (echoOf other) else [] := by
      rw [Ledger.echoesOf, linesOf_dispatched, List.filterMap_append]
      split_ifs <;> rfl
    show Interleaving _ done (repliesFor conn (log.handled ++ (pipeline.queued ++ _)))
    rw [← List.append_assoc, repliesFor_append, hrequests, hechoes]
    by_cases hsame : pipeline.kernel.connOf fd = conn
    · obtain rfl : fd = other := by
        have hregistered := howned.registeredAt_connOf hinfo
        rw [hsame] at hregistered
        exact howned.injective fd other conn (registeredAt_eq_some.mp hregistered).2
          (registeredAt_eq_some.mp hconn).2
      rw [if_pos hsame]
      exact horder.append_left _
    · rw [if_neg hsame, if_neg hsame, List.append_nil, List.append_nil]
      exact horder
  · obtain ⟨other, held⟩ := hreplies.heldReplies queued hqueued hreply
    exact ⟨other, hheld held⟩
  · obtain ⟨other, held⟩ := hreplies.heldAppends entry hentry
    exact ⟨other, hheld held⟩

/-- The worker executes a task. -/
theorem Replies.taken [LinearOrder Bytes] (hreplies : pipeline.Replies log) (env : DbEnv)
    {entry : TaskEntry} {rest : List TaskEntry} (htodo : pipeline.todo = [])
    (hheld : ∀ {conn fd}, pipeline.Held conn fd → (pipeline.taken env entry rest).Held conn fd) :
    (pipeline.taken env entry rest).Replies
      (log.executing entry (DbExecutor.execute env entry.task pipeline.db).2) := by
  refine ⟨?_, fun fd conn hconn ↦ ?_, fun queued hqueued hreply ↦ ?_, fun entry' hentry ↦ ?_⟩
  · show (log.answered ++ [_]).map Prod.fst =
      (pipeline.ledger.executed ++ [_]).map Execution.entry
    rw [List.map_append, List.map_append, hreplies.executed]
    rfl
  · obtain ⟨⟨done, hdone, horder⟩, hsent⟩ := hreplies.registered fd conn hconn
    refine ⟨⟨done, ?_, horder⟩, hsent⟩
    have hnil : repliesFor conn [] = [] := rfl
    rw [htodo, hnil, List.append_nil] at hdone
    subst hdone
    show ReplyLog.repliesOf { log with answered := log.answered ++ [_] } conn =
      log.repliesOf conn ++
        repliesFor conn ((DbExecutor.execute env entry.task pipeline.db).2.map (queuedOf entry _))
    rw [ReplyLog.repliesOf, ReplyLog.answersOf, List.filter_append, List.flatMap_append,
      ← ReplyLog.answersOf, ← ReplyLog.repliesOf]
    congr 1
    by_cases hsame : entry.conn = conn
    · rw [List.filter_cons_of_pos (by exact decide_eq_true hsame), List.filter_nil,
        List.flatMap_singleton, repliesFor_same, List.map_map]
      · exact congrArg _ (List.map_id _).symm
      · intro queued hqueued
        obtain ⟨command, -, rfl⟩ := List.mem_map.mp hqueued
        exact hsame
    · rw [List.filter_cons_of_neg (by simpa using hsame), List.filter_nil, List.flatMap_nil,
        repliesFor_eq_nil]
      intro queued hqueued _
      obtain ⟨command, -, rfl⟩ := List.mem_map.mp hqueued
      exact hsame
  · obtain ⟨fd, held⟩ := hreplies.heldReplies queued hqueued hreply
    exact ⟨fd, hheld held⟩
  · obtain ⟨fd, held⟩ := hreplies.heldAppends entry' hentry
    exact ⟨fd, hheld held⟩

/-- The worker queues a command. -/
theorem Replies.pushed (hreplies : pipeline.Replies log) {queued : Queued} {rest : List Queued}
    (htodo : pipeline.todo = queued :: rest)
    (hheld : ∀ {conn fd}, pipeline.Held conn fd → (pipeline.pushed queued rest).Held conn fd) :
    (pipeline.pushed queued rest).Replies log := by
  refine ⟨hreplies.executed, fun fd conn hconn ↦ ?_, fun other hother hreply ↦ ?_,
    fun entry hentry ↦ ?_⟩
  · obtain ⟨⟨done, hdone, horder⟩, hsent⟩ := hreplies.registered fd conn hconn
    refine ⟨⟨done ++ repliesFor conn [queued], ?_, ?_⟩, hsent⟩
    · rw [hdone, htodo, List.append_assoc, ← repliesFor_append]
      rfl
    · show Interleaving _ _ (repliesFor conn (log.handled ++ (pipeline.queued ++ [queued])))
      rw [← List.append_assoc, repliesFor_append]
      exact horder.append_right _
  · obtain ⟨fd, held⟩ := hreplies.heldReplies other hother hreply
    exact ⟨fd, hheld held⟩
  · obtain ⟨fd, held⟩ := hreplies.heldAppends entry hentry
    exact ⟨fd, hheld held⟩

end Pipeline

section Runs

variable [LinearOrder Bytes] {state next : ServerState} {log : ReplyLog}

/-- Every action keeps the replies. -/
theorem Pipeline.Replies.step {label : ServerLabel} (hreplies : state.pipeline.Replies log)
    (howned : state.pipeline.Owned) (hplaced : state.pipeline.Placed)
    (haligned : state.pipeline.Aligned fun _ ↦ true) (hheard : state.pipeline.Heard)
    (htransition : Transition state label next) :
    next.pipeline.Replies (repliesAfter state label next log) := by
  have hmoves := pipeline_step htransition
  have hheld : ∀ {conn fd}, state.pipeline.Held conn fd → next.pipeline.Held conn fd := by
    intro conn fd held
    rcases hmoves with hsame | hstep
    · exact hsame ▸ held
    · exact held.step howned hstep
  -- what changes the phase only leaves the pipeline
  have hstay : next.pipeline = state.pipeline → next.pipeline.Replies log := by
    intro hsame
    rw [hsame]
    exact hreplies
  have hsame := hmoves.resolve_right
  cases htransition with
  | accept fd hfd hclosed hidle => exact hreplies.accepted howned hclosed hheld
  | requestRegister fd conn hacceptor =>
    rw [pipeline_registering] at hheld ⊢
    exact hreplies.registering hheld
  | epollWait events hphase hinterest hnodup => exact hstay (hsame fun hstep ↦ by cases hstep)
  | swap events hphase => exact hstay (hsame fun hstep ↦ by cases hstep)
  | handle env queued pending events hphase =>
    have hqueued : state.pipeline.queued = queued :: (pending ++ state.cmdQ) := by
      simp [ServerState.pipeline, ServerState.queued, ServerState.pending, hphase]
    have hpending : state.pending = queued :: pending := by
      rw [ServerState.pending, hphase]
    unfold repliesAfter
    simp only [hpending]
    exact hreplies.handled howned hplaced haligned hheard env hqueued hheld
  | workDone events hphase => exact hstay (hsame fun hstep ↦ by cases hstep)
  | skip env stage event rest hphase hinfo =>
    refine hstay ?_
    simp [ServerState.pipeline, ServerState.queued, ServerState.pending, ServerState.todo, hphase]
  | dispatch env stage event rest si hphase hinfo =>
    rw [pipeline_dispatched hphase] at hheld ⊢
    exact hreplies.dispatched howned hinfo hheld
  | dispatchDone stage hphase => exact hstay (hsame fun hstep ↦ by cases hstep)
  | take env entry rest hworker htasks =>
    have htodo : state.pipeline.todo = [] := by
      simp [ServerState.pipeline, ServerState.todo, hworker]
    unfold repliesAfter
    simp only [htasks]
    exact hreplies.taken env htodo hheld
  | push entry queued todo hworker =>
    have htodo : state.pipeline.todo = queued :: todo := by
      simp [ServerState.pipeline, ServerState.todo, hworker]
    rw [pipeline_pushed] at hheld ⊢
    exact hreplies.pushed htodo hheld
  | finish entry hworker => exact hstay (hsame fun hstep ↦ by cases hstep)

/-- With fresh numbers the record is that of the replies in every state reached. -/
theorem replies_of_fresh {state : ServerState × ReplyLog}
    (hreach : replyServer.ReachableUnder (fun state label ↦ FreshDescriptor state.1 label) state) :
    state.1.pipeline.Replies state.2 := by
  refine @TransitionSystem.ReachableUnder.induction _ _ replyServer _
    (fun state ↦ state.1.pipeline.Replies state.2) Pipeline.replies_start ?_ _ hreach
  intro before label next hbefore hreplies _ hstep
  obtain ⟨hmoves, hrecord⟩ := TransitionSystem.withRecord_step_eq_some.mp hstep
  have hreached := hbefore.of_withRecord
  rw [hrecord]
  exact hreplies.step (owned_of_reachable hreached) (placed_of_reachable hreached)
    (aligned_of_fresh hreached) (heard_of_reachable hreached) (transition_of_step hmoves)

/-- What is recorded for a task is what its execution queued. -/
theorem executed_of_answered
    {condition : ServerState × ReplyLog → ServerLabel → Prop} {state : ServerState × ReplyLog}
    (hreach : replyServer.ReachableUnder condition state) :
    ∀ answer ∈ state.2.answered, ∃ env db,
      answer.2 = (DbExecutor.execute env answer.1.task db).2 := by
  refine @TransitionSystem.ReachableUnder.induction _ _ replyServer _
    (fun state ↦ ∀ answer ∈ state.2.answered, ∃ env db,
      answer.2 = (DbExecutor.execute env answer.1.task db).2)
    (fun answer hanswer ↦ by cases hanswer) ?_ _ hreach
  intro before label next _ hexecuted _ hstep answer hanswer
  rw [(TransitionSystem.withRecord_step_eq_some.mp hstep).2] at hanswer
  unfold repliesAfter at hanswer
  cases label with
  | handle env =>
    cases hpending : before.1.pending with
    | nil =>
      simp only [hpending] at hanswer
      exact hexecuted answer hanswer
    | cons queued pending =>
      simp only [hpending] at hanswer
      exact hexecuted answer hanswer
  | take env =>
    cases htasks : before.1.tasks with
    | nil =>
      simp only [htasks] at hanswer
      exact hexecuted answer hanswer
    | cons entry rest =>
      simp only [htasks] at hanswer
      rcases List.mem_append.mp hanswer with hold | hnew
      · exact hexecuted answer hold
      · rw [List.mem_singleton.mp hnew]
        exact ⟨env, before.1.db, rfl⟩
  | _ => exact hexecuted answer hanswer

omit [LinearOrder Bytes] in
/-- A task is queued for a database command only. -/
theorem isDbCommand_of_executed {state : ServerState} (hjournal : state.pipeline.Journal)
    {execution : Execution} (hexecution : execution ∈ state.ledger.executed) :
    isDbCommand execution.entry.task.cmd = true := by
  have hmem : execution.entry ∈ state.ledger.enqueued := by
    rw [show state.ledger.enqueued = _ from hjournal.order]
    exact List.mem_append_left _ (List.mem_map_of_mem hexecution)
  have hcmd : execution.entry.task.cmd ∈
      (state.ledger.linesOf execution.entry.conn).filterMap EpollServer.dbCommandOf := by
    rw [← show _ = (state.ledger.linesOf execution.entry.conn).filterMap EpollServer.dbCommandOf
      from hjournal.lines execution.entry.conn]
    exact List.mem_map_of_mem (List.mem_filter.mpr ⟨hmem, decide_eq_true rfl⟩)
  obtain ⟨line, -, hline⟩ := List.mem_filterMap.mp hcmd
  unfold EpollServer.dbCommandOf at hline
  split at hline
  · cases hline
  · split_ifs at hline with hdb
    rw [← Option.some.inj hline]
    exact hdb

/-- Every command is answered, in order. In every state reached with fresh numbers, for every
registered connection: its executed tasks and those waiting are the database commands of its lines
in order; every executed task has queued an answer; the replies handled for the connection and those
queued interleave its echoes with what its tasks queued; and what replies have appended to it is
what the replies handled for it are sent as. -/
theorem replies_in_order {state : ServerState} {log : ReplyLog}
    (hreach : replyServer.ReachableUnder (fun state label ↦ FreshDescriptor state.1 label)
      (state, log)) {fd : Int} {si : SocketInfo} {conn : Nat}
    (hinfo : state.registry.infos.lookup fd = some si) (hconn : state.kernel.conn fd = some conn) :
    (((log.answersOf conn).map Prod.fst ++
        state.tasks.filter fun entry ↦ decide (entry.conn = conn)).map fun entry ↦ entry.task.cmd) =
      (state.ledger.linesOf conn).filterMap EpollServer.dbCommandOf ∧
    (∀ answer ∈ log.answersOf conn, ∃ command ∈ answer.2, command.isAnswer = true) ∧
    ∃ done groups, log.repliesOf conn = done ++ repliesFor conn state.todo ∧
      Interleaving (state.ledger.echoesOf fd conn) done
        (repliesFor conn (log.handled ++ state.queued)) ∧
      List.Forall₂ RegistryCommand.Expands (repliesFor conn log.handled) groups ∧
      log.appendedOf conn = groups.flatten := by
  have hreplies := replies_of_fresh hreach
  have hexecuted : log.answered.map Prod.fst = state.ledger.executed.map Execution.entry :=
    hreplies.executed
  have hjournal := journal_of_reachable hreach.of_withRecord
  have horder : state.ledger.enqueued =
      state.ledger.executed.map Execution.entry ++ state.tasks := hjournal.order
  refine ⟨?_, fun answer hanswer ↦ ?_, ?_⟩
  · have hanswers : (log.answersOf conn).map Prod.fst =
        (state.ledger.executed.map Execution.entry).filter fun entry ↦
          decide (entry.conn = conn) := by
      rw [← hexecuted, List.filter_map]
      rfl
    rw [hanswers, ← List.filter_append, ← horder]
    exact hjournal.lines conn
  · have hmem := List.mem_of_mem_filter hanswer
    obtain ⟨env, db, hcommands⟩ := executed_of_answered hreach answer hmem
    have hentry : answer.1 ∈ state.ledger.executed.map Execution.entry := by
      rw [← hexecuted]
      exact List.mem_map_of_mem hmem
    obtain ⟨execution, hexecution, hsame⟩ := List.mem_map.mp hentry
    rw [hcommands]
    refine answered_execute env ?_ db
    rw [← hsame]
    exact isDbCommand_of_executed hjournal hexecution
  · have hregistered : state.pipeline.registeredAt fd = some conn :=
      Pipeline.registeredAt_eq_some.mpr ⟨Finmap.mem_of_lookup_eq_some hinfo, hconn⟩
    obtain ⟨⟨done, hdone, horder⟩, groups, hexpands, hgroups⟩ :=
      hreplies.registered fd conn hregistered
    exact ⟨done, groups, hdone, horder, hexpands, hgroups⟩

end Runs

/-- A client sends three lines at once: it registers an account, sends a response, and asks for its
friends. The worker executes the first task, and the event loop handles what is queued by then. -/
def twoAnswered : List ServerLabel :=
  connecting 5 ++ round [] 1 [] ++
    sending 5 [.cmdRegister (text "a") (text "p"), .cmdResponse (text "x"), .cmdListFriend] ++
    executing 1 ++ working [] 2

theorem replies_in_order_twoAnswered :
    ∃ state log, (@replyServer bytewise).run (@replyServer bytewise).start twoAnswered =
        some (state, log) ∧
      log.appendedOf 0 = [.cmdResponse (text "x"), .cmdResponse (text "register success")] ∧
      ∃ done groups, log.repliesOf 0 = done ++ repliesFor 0 state.todo ∧
        Interleaving (state.ledger.echoesOf 5 0) done
          (repliesFor 0 (log.handled ++ state.queued)) ∧
        List.Forall₂ RegistryCommand.Expands (repliesFor 0 log.handled) groups ∧
        log.appendedOf 0 = groups.flatten := by
  let order := bytewise
  have hrun : ((replyServer.run replyServer.start twoAnswered).map fun state ↦
      decide (state.2.appendedOf 0 =
          [.cmdResponse (text "x"), .cmdResponse (text "register success")] ∧
        state.1.kernel.conn 5 = some 0 ∧ (state.1.registry.infos.lookup 5).isSome)) =
      some true := by decide +kernel
  have hfresh : replyServer.Meets (fun state label ↦ FreshDescriptor state.1 label)
      replyServer.start twoAnswered := by decide +kernel
  obtain ⟨⟨state, log⟩, hstate, hfacts⟩ := Option.map_eq_some_iff.mp hrun
  obtain ⟨happended, hconn, hregistered⟩ := of_decide_eq_true hfacts
  obtain ⟨si, hinfo⟩ := Option.isSome_iff_exists.mp hregistered
  exact ⟨state, log, hstate, happended,
    (replies_in_order ⟨twoAnswered, hfresh, hstate⟩ hinfo hconn).2.2⟩

end ChatServer
