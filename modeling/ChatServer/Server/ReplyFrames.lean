import ChatServer.Client.ChatClient
import ChatServer.Protocol.CodecGrammar
import ChatServer.Reactor.AppendedReplies
import ChatServer.Server.Addressing
import ChatServer.Server.Authors

/-!
# One reply is one line

Whatever the server appends to the send buffer of a connection, the client reads it as one line and
decodes from it the response that was sent (`OneFrame`). For that no string that reaches a reply may
have a delimiter in it. `Pipeline.Clean` follows the strings from the lines they were decoded from
through sessions, tasks, the database and the queues, and every action keeps it.

The client takes the texts `login success` and `login failed` for the outcome of its login.
`Pipeline.Sourced` says where these texts come from: the worker answers a login with one, and a
response that a client sends is echoed. An echo reaches the connection it came from: the event loop
queues it while the connection is registered, so behind it only a closed number can be registered
again. That every text of a login has one of these two sources is part of `replies_oneFrame`. Which
connection the answer to a login reaches, when numbers are used again, is not part of it.
-/

set_option autoImplicit false
set_option relaxedAutoImplicit false

namespace ChatServer

/-! ### Frames -/

/-- The bytes of a command are one line, and a client that has received them decodes the command
from this line and keeps what follows it. -/
structure Command.OneFrame (cmd : Command) : Prop where
  newlines : (encode cmd).count newline = 1
  last : (encode cmd).getLast? = some newline
  read : ∀ (recv : OffsetBuffer) (rest : Bytes), recv.currentData = encode cmd ++ rest →
    ∃ line after, recv.parseLine = some (line, after) ∧ after.currentData = rest ∧
      decode line = .ok cmd

theorem oneFrame_of_tokens {cmd : Command} (hcmd : cmd.FieldsAreTokens) : cmd.OneFrame where
  newlines := by
    rw [encode_eq_line, List.count_append, List.count_eq_zero_of_not_mem (newline_notMem_line hcmd),
      List.count_singleton_self]
  last := by rw [encode_eq_line, List.getLast?_concat]
  read recv rest hdata := by
    rw [encode_eq_line, List.append_assoc, List.singleton_append] at hdata
    cases hparse : recv.parseLine with
    | none =>
      refine absurd ?_ (OffsetBuffer.parseLine_eq_none.mp hparse)
      rw [hdata]
      exact List.mem_append_right _ List.mem_cons_self
    | some parsed =>
      obtain ⟨line, after⟩ := parsed
      obtain ⟨hparsed, hline⟩ := OffsetBuffer.parseLine_eq_some hparse
      obtain ⟨hsame, hafter⟩ := DelimitedStream.record_append_inj hline (newline_notMem_line hcmd)
        (hparsed.symm.trans hdata)
      exact ⟨line, after, rfl, hafter, hsame ▸ decode_line hcmd⟩

/-- Only a text of a login changes what the client takes itself for. -/
theorem loggedIn_executeReply (client : ChatClient) {message : Bytes}
    (hmessage : ¬ IsLoginText message) :
    (client.executeReply (.cmdResponse message)).loggedIn = client.loggedIn := by
  obtain ⟨hsuccess, hfailed⟩ := not_or.mp hmessage
  unfold ChatClient.executeReply ChatClient.printLine
  dsimp only
  rw [if_neg hsuccess, if_neg hfailed]

/-! ### What a callback echoes -/

section Callbacks

variable {si : SocketInfo} {command : RegistryCommand}

theorem request_of_calls {called : EpollServer.Called} {data : Bytes}
    (hcalls : EpollServer.Calls si called data) (hcommand : command ∈ called.2) :
    command = .unregister si.ufd := by
  rcases hcalls.requests with hnone | hunregister
  · rw [hnone] at hcommand
    cases hcommand
  · rw [hunregister] at hcommand
    exact List.mem_singleton.mp hcommand

/-- `handle_execute` echoes the response it decoded. -/
theorem request_of_handleExecute (hcommand : command ∈ (EpollServer.handleExecute si).requests) :
    ∃ message line, (EpollServer.handleExecute si).line = some line ∧
      decode line = .ok (.cmdResponse message) ∧
      command = .sendOne si.ufd (.cmdResponse message) := by
  unfold EpollServer.handleExecute at hcommand ⊢
  cases hparse : si.recv.parseLine with
  | none =>
    rw [hparse] at hcommand
    cases hcommand
  | some parsed =>
    rw [hparse] at hcommand
    dsimp only at hcommand ⊢
    cases hdecode : decode parsed.1 with
    | error error =>
      rw [hdecode] at hcommand
      cases hcommand
    | ok cmd =>
      rw [hdecode] at hcommand
      dsimp only at hcommand ⊢
      by_cases hdb : isDbCommand cmd = true
      · rw [if_pos hdb] at hcommand
        cases hcommand
      · rw [if_neg hdb] at hcommand ⊢
        cases cmd with
        | cmdResponse message =>
          exact ⟨message, parsed.1, rfl, hdecode, List.mem_singleton.mp hcommand⟩
        | _ => exact absurd rfl hdb

/-- What a callback queues is a request to unregister the connection or the echo of its line. -/
theorem request_of_dispatchStage {env : IoEnv} {stage : Stage} {mask : UInt32}
    (hcommand : command ∈ (dispatchStage env stage mask si).requests) :
    command = .unregister si.ufd ∨
      ∃ message line, (dispatchStage env stage mask si).line = some line ∧
        decode line = .ok (.cmdResponse message) ∧
        command = .sendOne si.ufd (.cmdResponse message) := by
  unfold dispatchStage at hcommand ⊢
  cases stage with
  | recv =>
    dsimp only at hcommand
    obtain ⟨data, -, hcalls⟩ := EpollServer.calls_handleRecv env mask si
    by_cases herror : isErrorEvent mask = true
    · rw [if_pos herror] at hcommand
      exact Or.inl (request_of_calls (EpollServer.calls_handleClientError si) hcommand)
    rw [if_neg herror] at hcommand
    by_cases hread : isReadEvent mask = true
    · rw [if_pos hread] at hcommand
      exact Or.inl (request_of_calls hcalls hcommand)
    · rw [if_neg hread] at hcommand
      cases hcommand
  | send =>
    dsimp only at hcommand
    by_cases hwrite : isWriteEvent mask = true
    · rw [if_pos hwrite] at hcommand
      exact Or.inl (request_of_calls (EpollServer.calls_handleSend env si) hcommand)
    · rw [if_neg hwrite] at hcommand
      cases hcommand
  | execute =>
    dsimp only at hcommand ⊢
    by_cases hread : isReadEvent mask = true
    · rw [if_pos hread] at hcommand ⊢
      exact Or.inr (request_of_handleExecute hcommand)
    · rw [if_neg hread] at hcommand
      cases hcommand

end Callbacks

/-! ### Strings under way -/

namespace Pipeline

variable {pipeline : Pipeline}

/-- No string that the server holds has a delimiter in it. -/
structure Clean (pipeline : Pipeline) : Prop where
  registry : pipeline.registry.Clean
  underWay : ∀ queued ∈ pipeline.underWay, queued.command.Carries IsToken
  tasks : ∀ entry ∈ pipeline.tasks, entry.task.Clean
  db : pipeline.db.Clean

theorem clean_start : ServerState.start.pipeline.Clean where
  registry := EpollRegistry.clean_empty
  underWay := by
    simp [ServerState.pipeline, ServerState.start, Pipeline.underWay, ServerState.queued,
      ServerState.pending, ServerState.todo]
  tasks := by simp [ServerState.pipeline, ServerState.start]
  db := clean_empty

/-- A callback leaves the names of its connection, and what it queues comes from a line. -/
theorem Clean.dispatched (hclean : pipeline.Clean) {env : IoEnv} {stage : Stage} {mask : UInt32}
    {fd : Int} {si : SocketInfo} (hinfo : pipeline.registry.infos.lookup fd = some si) :
    (pipeline.dispatched fd si (dispatchStage env stage mask si)).Clean := by
  have hresult := dispatches_dispatchStage env stage mask si
  have hwhole : ∀ line, (dispatchStage env stage mask si).line = some line → newline ∉ line := by
    intro line hline
    have hparsed := hresult.line
    simp only [hline] at hparsed
    exact hparsed.1
  obtain ⟨hnickname, huser⟩ := hclean.registry fd si hinfo
  refine ⟨hclean.registry.insert rfl ?_, fun queued hqueued ↦ ?_, fun entry hentry ↦ ?_, hclean.db⟩
  · rw [hresult.identity.nickname, hresult.identity.userId]
    exact ⟨hnickname, huser⟩
  · rcases List.mem_append.mp hqueued with hfirst | htodo
    · rcases List.mem_append.mp hfirst with hold | hnew
      · exact hclean.underWay queued (List.mem_append_left _ hold)
      · obtain ⟨command, hcommand, rfl⟩ := List.mem_map.mp hnew
        rcases request_of_dispatchStage hcommand with rfl | ⟨message, line, hline, hdecode, rfl⟩
        · trivial
        · exact ⟨message, rfl, fieldsAreTokens_of_decode (hwhole line hline) hdecode message
            List.mem_cons_self⟩
    · exact hclean.underWay queued (List.mem_append_right _ htodo)
  · rcases List.mem_append.mp hentry with hold | hnew
    · exact hclean.tasks entry hold
    · obtain ⟨task, htask, rfl⟩ := Option.map_eq_some_iff.mp (Option.mem_toList.mp hnew)
      obtain ⟨line, hline, hcmd⟩ := hresult.task_line htask
      refine ⟨fieldsAreTokens_of_decode (hwhole line hline)
        (EpollServer.decode_of_dbCommandOf hcmd), ?_⟩
      rw [(hresult.task_identity htask).2]
      exact huser

end Pipeline

/-- PostgreSQL writes the timestamps of a task without delimiters. -/
def TimestampsPlain (label : ServerLabel) : Prop :=
  match label with
  | .take env => env.TimestampsUndelimited
  | _ => True

namespace Pipeline

variable [LinearOrder Bytes] {pipeline next : Pipeline} {record after : List Authored}
  {label : ServerLabel}

/-- Every action keeps the strings clean. -/
theorem Clean.step (hclean : pipeline.Clean) (hplain : TimestampsPlain label)
    (hstep : AuthoredStep pipeline record label next after) : next.Clean := by
  cases hstep with
  | stay => exact hclean
  | accept fd hfd hclosed hidle => exact ⟨hclean.registry, hclean.underWay, hclean.tasks, hclean.db⟩
  | register fd conn hacceptor =>
    refine ⟨hclean.registry, fun queued hqueued ↦ ?_, hclean.tasks, hclean.db⟩
    rcases List.mem_append.mp hqueued with hfirst | htodo
    · rcases List.mem_append.mp hfirst with hold | hnew
      · exact hclean.underWay queued (List.mem_append_left _ hold)
      · rw [List.mem_singleton.mp hnew]
        trivial
    · exact hclean.underWay queued (List.mem_append_right _ htodo)
  | handle env queued rest hqueued =>
    have hunderWay : pipeline.underWay =
        queued :: (pipeline.handled env queued rest).underWay := by
      rw [Pipeline.underWay, hqueued]
      rfl
    have hall := hclean.underWay
    rw [hunderWay, List.forall_mem_cons] at hall
    exact ⟨hclean.registry.handleCommand env hall.1, hall.2, hclean.tasks, hclean.db⟩
  | dispatch env stage mask fd si hinfo => exact hclean.dispatched hinfo
  | take env entry rest htodo htasks =>
    have htask := hclean.tasks
    rw [htasks, List.forall_mem_cons] at htask
    have hexecuted := clean_execute hplain hclean.db htask.1
    refine ⟨hclean.registry, fun queued hqueued ↦ ?_, htask.2, hexecuted.db⟩
    rcases List.mem_append.mp hqueued with hold | hnew
    · exact hclean.underWay queued (List.mem_append_left _ hold)
    · obtain ⟨command, hcommand, rfl⟩ := List.mem_map.mp hnew
      exact hexecuted.commands command hcommand
  | push queued rest htodo =>
    refine ⟨hclean.registry, fun other hother ↦ hclean.underWay other ?_, hclean.tasks, hclean.db⟩
    rw [Pipeline.underWay, htodo, List.append_cons]
    exact hother

end Pipeline

/-! ### Texts of a login -/

/-- A text of a login under way answers a line of the connection it is for: a login that a task
executed, or a response that is echoed. -/
def LoginSourced (ledger : Ledger) (authored : Authored) : Prop :=
  ∀ fd message, authored.1.command = .sendOne fd (.cmdResponse message) → IsLoginText message →
    match authored.2 with
    | some task => task.fd = fd ∧ (∃ id pw, task.cmd = .cmdLogin id pw) ∧
        ∃ line ∈ ledger.linesOf authored.1.conn, decode line = .ok task.cmd
    | none => ∃ line ∈ ledger.linesOf authored.1.conn, decode line = .ok (.cmdResponse message)

theorem LoginSourced.mono {ledger later : Ledger} {authored : Authored}
    (hsourced : LoginSourced ledger authored)
    (hlines : ∀ conn, ledger.linesOf conn ⊆ later.linesOf conn) : LoginSourced later authored := by
  intro fd message hcommand hlogin
  have hsource := hsourced fd message hcommand hlogin
  obtain ⟨queued, author⟩ := authored
  cases author with
  | some task =>
    obtain ⟨hfd, hcmd, line, hline, hdecode⟩ := hsource
    exact ⟨hfd, hcmd, line, hlines _ hline, hdecode⟩
  | none =>
    obtain ⟨line, hline, hdecode⟩ := hsource
    exact ⟨line, hlines _ hline, hdecode⟩

/-- A command that no task queued is for the connection of its callback, or registers one. -/
def callbackAddressing : Addressing Authored Int Nat where
  target authored := if authored.2 = none then authored.1.command.target else none
  owner authored := authored.1.conn
  binds authored := authored.1.command.registers

namespace Pipeline

/-- Every task has its line, every text of a login its source, and what callbacks queued finds the
connections it is for. -/
structure Sourced (pipeline : Pipeline) (record : List Authored) : Prop where
  worker : ∀ authored ∈ record.drop pipeline.queued.length, authored.2 ≠ none
  tasks : ∀ entry ∈ pipeline.tasks,
    ∃ line ∈ pipeline.ledger.linesOf entry.conn, decode line = .ok entry.task.cmd
  logins : ∀ authored ∈ record, LoginSourced pipeline.ledger authored
  aligned : callbackAddressing.Aligned pipeline.registeredAt record

theorem sourced_start : ServerState.start.pipeline.Sourced [] where
  worker := by simp
  tasks := by simp [ServerState.pipeline, ServerState.start]
  logins := by simp
  aligned := Addressing.Aligned.nil _

section Steps

variable {pipeline : Pipeline} {record : List Authored}

theorem Sourced.registering (hsourced : pipeline.Sourced record)
    (hcovers : record.map Prod.fst = pipeline.underWay) (fd : Int) (conn : Nat) :
    (pipeline.registering fd conn).Sourced (record.take pipeline.queued.length ++
      ({ command := .register fd (epollIn ||| epollRdhup), conn := conn }, none) ::
        record.drop pipeline.queued.length) := by
  have hlength : (record.take pipeline.queued.length).length = pipeline.queued.length := by
    rw [← List.length_map Prod.fst, (split_record hcovers).1]
  refine ⟨fun authored hauthored ↦ hsourced.worker authored ?_, hsourced.tasks,
    fun authored hauthored ↦ ?_, ?_⟩
  · have hqueued : (pipeline.registering fd conn).queued.length = pipeline.queued.length + 1 :=
      List.length_append
    rw [hqueued, List.append_cons, List.drop_left' (by rw [List.length_append, hlength]; rfl)]
      at hauthored
    exact hauthored
  · rcases List.mem_append.mp hauthored with hfirst | hrest
    · exact hsourced.logins authored (List.mem_of_mem_take hfirst)
    · rcases List.mem_cons.mp hrest with rfl | hlast
      · intro other message hcommand
        cases hcommand
      · exact hsourced.logins authored (List.mem_of_mem_drop hlast)
  · have haligned := hsourced.aligned
    rw [← List.take_append_drop pipeline.queued.length record] at haligned
    refine haligned.insert (fun name owner htarget ↦ by cases htarget)
      (fun _ _ name _ htarget ↦ by cases htarget) fun other hother name _ ↦ ?_
    show (if other.2 = none then _ else none) ≠ some name
    rw [if_neg (hsourced.worker other hother)]
    exact fun htarget ↦ by cases htarget

theorem Sourced.handled (hsourced : pipeline.Sourced record)
    (hcovers : record.map Prod.fst = pipeline.underWay) (howned : pipeline.Owned)
    (env : HandlerEnv) {queued : Queued} {rest : List Queued}
    (hqueued : pipeline.queued = queued :: rest) :
    (pipeline.handled env queued rest).Sourced record.tail := by
  obtain ⟨author, later, rfl, -⟩ := exists_record_cons hcovers env hqueued
  have hworker := hsourced.worker
  rw [hqueued] at hworker
  exact ⟨hworker, hsourced.tasks,
    fun authored hauthored ↦ hsourced.logins authored (List.mem_cons_of_mem _ hauthored),
    hsourced.aligned.pop (registeredAt_handled howned env hqueued)⟩

/-- What a callback queues is for its own connection, which is registered. -/
theorem Sourced.aligned_dispatched (hsourced : pipeline.Sourced record)
    (hcovers : record.map Prod.fst = pipeline.underWay) (howned : pipeline.Owned) {env : IoEnv}
    {stage : Stage} {mask : UInt32} {fd : Int} {si : SocketInfo}
    (hinfo : pipeline.registry.infos.lookup fd = some si) :
    callbackAddressing.Aligned
      (pipeline.dispatched fd si (dispatchStage env stage mask si)).registeredAt
      (record.take pipeline.queued.length ++
        ((dispatchStage env stage mask si).requests.map fun command ↦
          (({ command := command, conn := pipeline.kernel.connOf fd } : Queued), none)) ++
        record.drop pipeline.queued.length) := by
  have hresult := dispatches_dispatchStage env stage mask si
  have hufd : si.ufd = fd := (howned.consistent.ufd fd si hinfo).1
  obtain ⟨hfirst, -⟩ := split_record hcovers
  have hbound : (pipeline.dispatched fd si (dispatchStage env stage mask si)).registeredAt =
      pipeline.registeredAt := funext (registeredAt_dispatched hinfo _)
  have haligned := hsourced.aligned
  rw [← List.take_append_drop pipeline.queued.length record] at haligned
  have hrequests : ∀ item ∈ (dispatchStage env stage mask si).requests.map fun command ↦
      ((({ command := command, conn := pipeline.kernel.connOf fd } : Queued), none) : Authored),
      item.1.command.registers = none ∧ item.1.command.target = some fd ∧
        item.1.conn = pipeline.kernel.connOf fd := by
    intro item hitem
    obtain ⟨command, hcommand, rfl⟩ := List.mem_map.mp hitem
    rw [← hufd]
    rcases hresult.requests command hcommand with rfl | ⟨message, rfl⟩ <;> exact ⟨rfl, rfl, rfl⟩
  have htarget : ∀ item ∈ (dispatchStage env stage mask si).requests.map fun command ↦
      ((({ command := command, conn := pipeline.kernel.connOf fd } : Queued), none) : Authored),
      ∀ name, callbackAddressing.target item = some name → name = fd := by
    intro item hitem name hname
    unfold callbackAddressing at hname
    dsimp only at hname
    rw [(hrequests item hitem).2.1] at hname
    split_ifs at hname
    exact (Option.some.inj hname).symm
  rw [hbound, List.append_assoc]
  refine haligned.add (fun item hitem ↦ (hrequests item hitem).1)
    (fun item hitem name owner hname howner ↦ ?_)
    (fun other hother name hbinds item hitem hname ↦ ?_)
  · rw [htarget item hitem name hname, howned.registeredAt_connOf hinfo] at howner
    exact (Option.some.inj howner).symm.trans (hrequests item hitem).2.2.symm
  · -- a registration that is queued is for a number that is not registered
    have hmem : other.1 ∈ pipeline.queued := hfirst ▸ List.mem_map_of_mem hother
    rw [htarget item hitem name hname] at hbinds
    exact (howned.register_fresh hmem hbinds).2 (Finmap.mem_of_lookup_eq_some hinfo)

theorem Sourced.dispatched (hsourced : pipeline.Sourced record)
    (hcovers : record.map Prod.fst = pipeline.underWay) (howned : pipeline.Owned) {env : IoEnv}
    {stage : Stage} {mask : UInt32} {fd : Int} {si : SocketInfo}
    (hinfo : pipeline.registry.infos.lookup fd = some si) :
    (pipeline.dispatched fd si (dispatchStage env stage mask si)).Sourced
      (record.take pipeline.queued.length ++
        ((dispatchStage env stage mask si).requests.map fun command ↦
          (({ command := command, conn := pipeline.kernel.connOf fd } : Queued), none)) ++
        record.drop pipeline.queued.length) := by
  have hresult := dispatches_dispatchStage env stage mask si
  obtain ⟨hfirst, -⟩ := split_record hcovers
  have hlength : (record.take pipeline.queued.length).length = pipeline.queued.length := by
    rw [← List.length_map Prod.fst, hfirst]
  have hlines := @linesOf_dispatched pipeline fd si (dispatchStage env stage mask si)
  have hextends : ∀ conn, pipeline.ledger.linesOf conn ⊆
      (pipeline.dispatched fd si (dispatchStage env stage mask si)).ledger.linesOf conn := by
    intro conn
    rw [hlines]
    exact List.subset_append_left _ _
  have hrecorded : ∀ line, (dispatchStage env stage mask si).line = some line →
      line ∈ (pipeline.dispatched fd si (dispatchStage env stage mask si)).ledger.linesOf
        (pipeline.kernel.connOf fd) := by
    intro line hline
    rw [hlines, if_pos rfl, hline]
    exact List.mem_append_right _ (List.mem_singleton.mpr rfl)
  refine ⟨fun authored hauthored ↦ hsourced.worker authored ?_, fun entry hentry ↦ ?_,
    fun authored hauthored ↦ ?_, ?_⟩
  · have hqueued : (pipeline.dispatched fd si (dispatchStage env stage mask si)).queued.length =
        pipeline.queued.length + (dispatchStage env stage mask si).requests.length :=
      List.length_append.trans (congrArg (pipeline.queued.length + ·) (List.length_map _))
    rw [hqueued, List.drop_left' (by rw [List.length_append, hlength, List.length_map])]
      at hauthored
    exact hauthored
  · rcases List.mem_append.mp hentry with hold | hnew
    · obtain ⟨line, hline, hdecode⟩ := hsourced.tasks entry hold
      exact ⟨line, hextends _ hline, hdecode⟩
    · obtain ⟨task, htask, rfl⟩ := Option.map_eq_some_iff.mp (Option.mem_toList.mp hnew)
      obtain ⟨line, hline, hcmd⟩ := hresult.task_line htask
      exact ⟨line, hrecorded line hline, EpollServer.decode_of_dbCommandOf hcmd⟩
  · rcases List.mem_append.mp hauthored with hmem | hlast
    · rcases List.mem_append.mp hmem with hold | hnew
      · exact (hsourced.logins authored (List.mem_of_mem_take hold)).mono hextends
      · obtain ⟨command, hcommand, rfl⟩ := List.mem_map.mp hnew
        intro other message hsend _
        rcases request_of_dispatchStage hcommand with rfl | ⟨echoed, line, hline, hdecode, rfl⟩
        · cases hsend
        · cases hsend
          exact ⟨line, hrecorded line hline, hdecode⟩
    · exact (hsourced.logins authored (List.mem_of_mem_drop hlast)).mono hextends
  · exact hsourced.aligned_dispatched hcovers howned hinfo

variable [LinearOrder Bytes]

theorem Sourced.taken (hsourced : pipeline.Sourced record)
    (hcovers : record.map Prod.fst = pipeline.underWay) (hclean : pipeline.Clean) {env : DbEnv}
    (henv : env.TimestampsUndelimited) {entry : TaskEntry} {rest : List TaskEntry}
    (htodo : pipeline.todo = []) (htasks : pipeline.tasks = entry :: rest) :
    (pipeline.taken env entry rest).Sourced (record ++
      (pipeline.taken env entry rest).todo.map fun queued ↦ (queued, some entry.task)) := by
  have hmem : entry ∈ pipeline.tasks := htasks ▸ List.mem_cons_self
  have hlength : record.length = pipeline.queued.length := by
    rw [← List.length_map Prod.fst, hcovers, underWay, htodo, List.append_nil]
  refine ⟨fun authored hauthored ↦ ?_,
    fun other hother ↦ hsourced.tasks other (htasks ▸ List.mem_cons_of_mem _ hother),
    fun authored hauthored ↦ ?_, ?_⟩
  · change authored ∈ List.drop pipeline.queued.length _ at hauthored
    rw [List.drop_left' hlength] at hauthored
    obtain ⟨queued, -, rfl⟩ := List.mem_map.mp hauthored
    exact Option.some_ne_none _
  · rcases List.mem_append.mp hauthored with hold | hnew
    · exact hsourced.logins authored hold
    · obtain ⟨queued, hqueued, rfl⟩ := List.mem_map.mp hnew
      obtain ⟨command, hcommand, rfl⟩ := List.mem_map.mp hqueued
      intro fd message hsend hlogin
      obtain rfl : command = .sendOne fd (.cmdResponse message) := hsend
      have hfd : fd = entry.task.fd := byWorker_execute env entry.task pipeline.db _ hcommand
      refine ⟨hfd.symm, ?_, hsourced.tasks entry hmem⟩
      by_contra hother
      obtain ⟨plain, hplain, hreply⟩ := (plain_execute henv hclean.db (hclean.tasks entry hmem)
        fun id pw hcmd ↦ hother ⟨id, pw, hcmd⟩).commands _ hcommand
      rw [Command.cmdResponse.inj hplain] at hlogin
      exact hreply.notLogin hlogin
  · have hnew : ∀ item ∈ (pipeline.taken env entry rest).todo.map fun queued ↦
        ((queued, some entry.task) : Authored),
        item.1.command.registers = none ∧ callbackAddressing.target item = none := by
      intro item hitem
      obtain ⟨queued, hqueued, rfl⟩ := List.mem_map.mp hitem
      obtain ⟨command, hcommand, rfl⟩ := List.mem_map.mp hqueued
      refine ⟨registers_of_byWorker (byWorker_execute env entry.task pipeline.db command hcommand),
        ?_⟩
      show (if some entry.task = none then command.target else none) = none
      exact if_neg (Option.some_ne_none _)
    have haligned := hsourced.aligned
    rw [← List.append_nil record] at haligned
    rw [← List.append_nil (List.map _ _)]
    refine haligned.add (fun item hitem ↦ (hnew item hitem).1)
      (fun item hitem name owner hname _ ↦ ?_) (fun _ _ name _ item hitem hname ↦ ?_)
    · rw [(hnew item hitem).2] at hname
      cases hname
    · rw [(hnew item hitem).2] at hname
      cases hname

/-- Every action keeps the sources. -/
theorem Sourced.step {next : Pipeline} {after : List Authored} {label : ServerLabel}
    (hsourced : pipeline.Sourced record) (hcovers : record.map Prod.fst = pipeline.underWay)
    (howned : pipeline.Owned) (hclean : pipeline.Clean) (hplain : TimestampsPlain label)
    (hstep : AuthoredStep pipeline record label next after) : next.Sourced after := by
  cases hstep with
  | stay => exact hsourced
  | accept fd hfd hclosed hidle =>
    exact ⟨hsourced.worker, hsourced.tasks, hsourced.logins, hsourced.aligned.mono
      fun name owner howner ↦ (registeredAt_accepted howned hclosed name).symm.trans howner⟩
  | register fd conn hacceptor => exact hsourced.registering hcovers fd conn
  | handle env queued rest hqueued => exact hsourced.handled hcovers howned env hqueued
  | dispatch env stage mask fd si hinfo => exact hsourced.dispatched hcovers howned hinfo
  | take env entry rest htodo htasks => exact hsourced.taken hcovers hclean hplain htodo htasks
  | push queued rest htodo =>
    refine ⟨fun authored hauthored ↦ hsourced.worker authored ?_, hsourced.tasks, hsourced.logins,
      hsourced.aligned⟩
    have hlength : (pipeline.pushed queued rest).queued.length = pipeline.queued.length + 1 :=
      List.length_append
    rw [hlength, ← List.drop_drop] at hauthored
    exact List.mem_of_mem_drop hauthored

end Steps

end Pipeline

/-! ### Replies in runs -/

section Runs

variable [LinearOrder Bytes] {state : ServerState × List Authored}

theorem clean_of_reachable
    (hreach : authoredServer.ReachableUnder (fun _ label ↦ TimestampsPlain label) state) :
    state.1.pipeline.Clean := by
  refine @TransitionSystem.ReachableUnder.induction _ _ authoredServer _
    (fun state ↦ state.1.pipeline.Clean) Pipeline.clean_start ?_ _ hreach
  intro before label next _ hclean hplain hstep
  obtain ⟨hmoves, -⟩ := TransitionSystem.withRecord_step_eq_some.mp hstep
  exact hclean.step hplain (authoredStep_of_transition before.2 (transition_of_step hmoves))

theorem sourced_of_reachable
    (hreach : authoredServer.ReachableUnder (fun _ label ↦ TimestampsPlain label) state) :
    state.1.pipeline.Sourced state.2 := by
  refine @TransitionSystem.ReachableUnder.induction _ _ authoredServer _
    (fun state ↦ state.1.pipeline.Sourced state.2) Pipeline.sourced_start ?_ _ hreach
  intro before label next hbefore hsourced hplain hstep
  obtain ⟨hmoves, hrecord⟩ := TransitionSystem.withRecord_step_eq_some.mp hstep
  rw [hrecord]
  exact hsourced.step (covers_of_reachable hbefore)
    (owned_of_reachable hbefore.reachable.of_withRecord) (clean_of_reachable hbefore) hplain
    (authoredStep_of_transition before.2 (transition_of_step hmoves))

/-- Whatever is appended to a send buffer is a response that the client reads as one line, with the
text that was sent. If it is a text of a login, the command that is handled was queued to send just
this text, either by the task of a login that the connection asked for, or as the echo of a response
that this very connection has sent. -/
theorem replies_oneFrame
    (hreach : authoredServer.ReachableUnder (fun _ label ↦ TimestampsPlain label) state)
    {queued : Queued} {pending : List Queued} {events : List Event}
    (hphase : state.1.phase = .working (queued :: pending) events) {env : HandlerEnv} {fd : Int}
    {userId : Bytes} {cmd : Command}
    (happended : .appended fd userId cmd ∈
      (state.1.registry.handleCommand env queued.command).2) :
    ∃ message, cmd = .cmdResponse message ∧ cmd.OneFrame ∧
      (∀ client : ChatClient, (client.executeReply cmd).loggedIn ≠ client.loggedIn →
        IsLoginText message) ∧
      (IsLoginText message → queued.command = .sendOne fd cmd ∧
        ∃ author, state.2.head? = some (queued, author) ∧
          match author with
          | some task => task.fd = fd ∧ (∃ id pw, task.cmd = .cmdLogin id pw) ∧
              ∃ line ∈ state.1.ledger.linesOf queued.conn, decode line = .ok task.cmd
          | none => state.1.kernel.conn fd = some queued.conn ∧
              ∃ line ∈ state.1.ledger.linesOf queued.conn, decode line = .ok cmd) := by
  have howned := owned_of_reachable hreach.reachable.of_withRecord
  have hclean := clean_of_reachable hreach
  have hsourced := sourced_of_reachable hreach
  have hqueued : state.1.pipeline.queued = queued :: (pending ++ state.1.cmdQ) := by
    simp [ServerState.pipeline, ServerState.queued, ServerState.pending, hphase]
  have hcarries : queued.command.Carries IsToken := by
    refine hclean.underWay queued (List.mem_append_left _ ?_)
    rw [hqueued]
    exact List.mem_cons_self
  obtain ⟨message, rfl, hmessage, hsend⟩ := EpollRegistry.reply_of_writes hclean.registry hcarries
    (EpollRegistry.writes_handleCommand happended)
  have htokens : (Command.cmdResponse message).FieldsAreTokens :=
    fun field hfield ↦ List.mem_singleton.mp hfield ▸ hmessage
  refine ⟨message, rfl, oneFrame_of_tokens htokens, fun client hflips ↦ ?_, fun hlogin ↦ ?_⟩
  · by_contra hother
    exact hflips (loggedIn_executeReply client hother)
  · have hcommand := hsend hlogin
    obtain ⟨author, later, hrecord, -⟩ :=
      exists_record_cons (covers_of_reachable hreach) env hqueued
    have hmem : (queued, author) ∈ state.2 := hrecord ▸ List.mem_cons_self
    have hsource := hsourced.logins (queued, author) hmem fd message hcommand hlogin
    refine ⟨hcommand, author, by rw [hrecord]; rfl, ?_⟩
    cases author with
    | some task => exact hsource
    | none =>
      refine ⟨?_, hsource⟩
      have hregistered : fd ∈ state.1.registry.infos := by
        by_contra hgone
        rw [hcommand] at happended
        change _ ∈ (state.1.registry.handleSendOne env fd _).2 at happended
        unfold EpollRegistry.handleSendOne at happended
        rw [Finmap.lookup_eq_none.mpr hgone] at happended
        cases happended
      obtain ⟨conn, hconn⟩ := howned.registered fd hregistered
      have htarget : callbackAddressing.target (queued, none) = some fd := by
        show (if (none : Option Task) = none then queued.command.target else none) = some fd
        rw [if_pos rfl, hcommand]
        rfl
      have hown := hsourced.aligned.current (queued, none) hmem fd conn htarget
        (Pipeline.registeredAt_eq_some.mpr ⟨hregistered, hconn⟩)
      rw [← show conn = queued.conn from hown]
      exact hconn

end Runs

/-- A client registers, and then sends a response with a text of a login. Its echo is the next
command to be handled. -/
def forgedLogin : List ServerLabel :=
  connecting 5 ++ round [] 1 [] ++ sending 5 [.cmdRegister (text "a") (text "p")] ++
    executing 1 ++ round [] 1 [] ++ sending 5 [.cmdResponse (text "login success")] ++ working [] 0

/-- The echo. -/
def forgedReply : Queued where
  command := .sendOne 5 (.cmdResponse (text "login success"))
  conn := 0

theorem timestampsPlain_forgedLogin : ∀ label ∈ forgedLogin, TimestampsPlain label := by
  have hsteady : DbEnv.steady.TimestampsUndelimited := fun _ ↦ undelimited_nil
  simp [forgedLogin, connecting, round, working, sending, executing, TimestampsPlain, hsteady]

theorem replies_oneFrame_forgedLogin :
    ∃ state record, (@authoredServer bytewise).run (@authoredServer bytewise).start forgedLogin =
        some (state, record) ∧ record.head? = some (forgedReply, none) ∧
      (Command.cmdResponse (text "login success")).OneFrame ∧
      state.kernel.conn 5 = some 0 ∧
      ∃ line ∈ state.ledger.linesOf 0, decode line = .ok (.cmdResponse (text "login success")) := by
  let order := bytewise
  have hmeets := authoredServer.meets_of_labels
    (fun label hlabel _ ↦ timestampsPlain_forgedLogin label hlabel) authoredServer.start
  have hrun : ((authoredServer.run authoredServer.start forgedLogin).map fun state ↦
      decide (state.1.pending.head? = some forgedReply ∧
        state.2.head? = some (forgedReply, none) ∧
        .appended 5 [] (.cmdResponse (text "login success")) ∈
          (state.1.registry.handleCommand .steady forgedReply.command).2)) = some true := by
    decide +kernel
  obtain ⟨⟨state, record⟩, hstate, hfacts⟩ := Option.map_eq_some_iff.mp hrun
  obtain ⟨hpending, hrecord, happended⟩ := of_decide_eq_true hfacts
  obtain ⟨rest, events, hphase⟩ := ServerState.phase_of_pending hpending
  obtain ⟨message, hmessage, hframe, -, hlogin⟩ :=
    replies_oneFrame ⟨forgedLogin, hmeets, hstate⟩ hphase happended
  obtain ⟨-, author, hhead, hsource⟩ := hlogin (Or.inl (Command.cmdResponse.inj hmessage).symm)
  have hauthor : author = none :=
    (congrArg Prod.snd (Option.some.inj (hrecord.symm.trans hhead))).symm
  rw [hauthor] at hsource
  exact ⟨state, record, hstate, hrecord, hframe, hsource⟩

end ChatServer
